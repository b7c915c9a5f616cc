import Proofstorm.Halting
import Proofstorm.Retirement.Teardown

/-!
What a retirement has seen and done before it removes something, whatever others do to
the daemon meanwhile. It has saved its marker, it addresses containers and the network
by their recorded ids, and it has checked a volume if its last check listed it
(`retireLocked_grounded`).
-/
namespace Proofstorm.Retirement
open Proofstorm.Core (Json)
open Proofstorm.Interleaving

abbrev Deeds := List (Deed Machine Command Command.Answer)

/-! ### Calls that only ask -/

abbrev Asks {α : Type} (call : Program α) : Prop := Halts (fun command => command.asks = true) call

section
variable {installation : Installation} {expected : Resources}

theorem asks_readVolume (name missing : String) (volumes : List (String × Json)) : Asks (readVolume name missing volumes) :=
  .bind (halts_submit rfl) fun _ => .bind (halts_settle _) fun _ => halts_pure _

theorem asks_readMounts (mounts : List Mount) (volumes : List (String × Json)) : Asks (readMounts mounts volumes) := by
  induction mounts generalizing volumes with
  | nil => exact halts_pure _
  | cons mount rest ih =>
    rw [readMounts]
    split
    · exact ih volumes
    · exact .bind (halts_settle _) fun _ => .bind (asks_readVolume _ _ _) fun volumes => ih volumes

theorem asks_readContainer (name : String) (found : Found) : Asks (readContainer installation name found) :=
  .bind (halts_submit rfl) fun _ => .bind (halts_settle _) fun _ => .bind (halts_settle _) fun _ =>
    .bind (halts_settle _) fun _ => .bind (halts_settle _) fun _ => .bind (asks_readMounts _ _) fun _ => halts_pure _

theorem asks_readContainers (allNames names : List String) (found : Found) :
    Asks (readContainers installation allNames names found) := by
  induction names generalizing found with
  | nil => exact halts_pure _
  | cons name rest ih =>
    rw [readContainers]
    split
    · exact .bind (asks_readContainer name found) fun found => ih found
    · exact ih found

theorem asks_readNetwork (networks : List String) : Asks (readNetwork installation networks) := by
  rw [readNetwork]
  split
  · exact .bind (halts_submit rfl) fun _ => .bind (halts_settle _) fun _ => .bind (halts_settle _) fun _ => halts_pure _
  · exact halts_pure _

theorem asks_readImages (volumes : List (String × Json)) : Asks (readImages installation volumes) := by
  refine .bind (halts_submit rfl) fun names => ?_
  split
  · exact asks_readVolume _ _ _
  · exact halts_pure _

theorem asks_snapshot : Asks (snapshot installation) :=
  .bind (halts_submit rfl) fun _ => .bind (halts_settle _) fun _ => .bind (halts_submit rfl) fun _ =>
    .bind (halts_submit rfl) fun _ => .bind (asks_readNetwork _) fun _ => .bind (asks_readContainers _ _ _) fun _ =>
      .bind (asks_readImages _) fun _ => halts_pure _

theorem asks_compared : Asks (compared installation expected) :=
  .bind asks_snapshot fun _ => .bind (halts_settle _) fun _ => halts_pure _

theorem asks_exclusiveMembers (network : String) : Asks (exclusiveMembers expected network) := by
  refine .bind (halts_submit rfl) fun networks => ?_
  split
  · exact .bind (halts_submit rfl) fun _ => .bind (halts_settle _) fun _ => halts_settle _
  · exact halts_pure _

theorem asks_exclusiveNetwork : Asks (exclusiveNetwork expected) := by
  rw [exclusiveNetwork]
  split
  · exact asks_exclusiveMembers _
  · exact halts_pure _

theorem asks_exclusiveVolumes (listed : List String) (volumes : List (String × Json)) :
    Asks (exclusiveVolumes expected listed volumes) := by
  induction volumes with
  | nil => exact halts_pure _
  | cons entry rest ih =>
    rw [exclusiveVolumes]
    split
    · exact .bind (halts_submit rfl) fun _ => .bind (halts_settle _) fun _ => .bind (halts_submit rfl) fun _ =>
        .bind (halts_settle _) fun _ => ih
    · exact ih

theorem asks_verifyRemoved : Asks (verifyRemoved installation expected) :=
  .bind asks_compared fun _ => halts_settle _

theorem asks_exclusive : Asks (exclusive expected) :=
  .bind asks_exclusiveNetwork fun _ => .bind (halts_submit rfl) fun _ => asks_exclusiveVolumes _ _
end

/-! ### What a removal asks for -/

/-- The deed of a check of recorded volumes. -/
def inspects : Deed Machine Command Command.Answer → Bool
  | .did (.inspectVolume _) _ => true
  | .did (.volumeUsers _) _ => true
  | _ => false

/-- These deeds have found the volume as recorded, and no user that is not. -/
def Checked (expected : Resources) (name : String) (check : Deeds) : Prop :=
  ∃ (volume : Volume) (users : List String), Deed.did (.inspectVolume name) volume ∈ check ∧
    (name,volumeIdentity volume) ∈ expected.volumes ∧ Deed.did (.volumeUsers name) users ∈ check ∧
    ∀ id ∈ users, id ∈ expected.ids

/-- The last deeds were a listing of the volumes and a check of those that it lists. -/
def Reviewed (expected : Resources) (now : Deeds) : Prop :=
  ∃ (check older : Deeds) (listed : List String), now = check ++ .did .volumeNames listed :: older ∧
    (∀ deed ∈ check, inspects deed = true) ∧
    ∀ entry ∈ expected.volumes, Checked expected entry.1 check ↔ entry.1 ∈ listed

def Saved (deeds : Deeds) : Prop := Deed.did (.saveRetired "deleting") () ∈ deeds

structure Allows (expected : Resources) (deeds : Deeds) (command : Command) : Prop where
  saved : command.removes = true → Saved deeds
  container : ∀ id, command = .removeContainer id → id ∈ expected.ids
  network : ∀ id, command = .removeNetwork id → expected.networkId = some id
  volume : ∀ name, command = .removeVolume name → name ∈ expected.volumes.map Prod.fst ∧
    ∃ (names : List String) (older : Deeds), name ∈ names ∧ deeds = .did .volumeNames names :: older ∧ Reviewed expected older

theorem Allows.keeps {expected : Resources} {deeds : Deeds} {command : Command} (keeps : command.removes = false) :
    Allows expected deeds command := by
  refine ⟨fun removes => ?_,?_,?_,?_⟩
  · rw [keeps] at removes
    cases removes
  all_goals
    rintro _ rfl
    cases keeps

theorem Command.keeps_of_asks {command : Command} (asks : command.asks = true) : command.removes = false := by
  cases command <;> first | rfl | cases asks

/-! ### Rules -/

/-- After a call: its deeds are added, and a value satisfies the postcondition. -/
def Ends {α : Type} (deeds : Deeds) (post : Deeds → α → Prop) (now : Deeds) (outcome : Except Failure α) : Prop :=
  ∀ value, outcome = .ok value → deeds ⊆ now ∧ post now value

section
variable {α β : Type} {expected : Resources} {deeds : Deeds} {post : Deeds → α → Prop}

theorem Ends.from {earlier now : Deeds} {outcome : Except Failure α} (ends : Ends deeds post now outcome)
    (subset : earlier ⊆ deeds) : Ends earlier post now outcome :=
  fun value same => ⟨List.Subset.trans subset (ends value same).1,(ends value same).2⟩

theorem ends_value {value : α} (holds : post deeds value) :
    (pure value : Program α).run.Grounded (Allows expected) (Ends deeds post) deeds := by
  rintro _ ⟨⟩
  exact ⟨List.Subset.refl _,holds⟩

variable {command : Command} {k : β → Program α}

theorem ends_run {k : command.Answer → Program α} (may : Allows expected deeds command)
    (then_ : ∀ answer, (k answer).run.Grounded (Allows expected) (Ends (.did command answer :: deeds) post)
      (.did command answer :: deeds)) : (run command >>= k).run.Grounded (Allows expected) (Ends deeds post) deeds :=
  .afterSubmit (fun _ => nofun) may fun answer =>
    (then_ answer).mono fun _ _ ends => ends.from (List.subset_cons_self _ _)

/-- A command that ends the call. -/
theorem ends_last {post : Deeds → command.Answer → Prop} (may : Allows expected deeds command)
    (then_ : ∀ answer, post (.did command answer :: deeds) answer) :
    (run command).run.Grounded (Allows expected) (Ends deeds post) deeds := by
  refine ⟨may,fun answer => ?_,fun error => nofun⟩
  rintro _ ⟨⟩
  exact ⟨List.subset_cons_self _ _,then_ answer⟩

theorem ends_settle {outcome : Except Failure β}
    (then_ : ∀ value, outcome = .ok value → (k value).run.Grounded (Allows expected) (Ends deeds post) deeds) :
    (settle outcome >>= k).run.Grounded (Allows expected) (Ends deeds post) deeds :=
  .afterSettle (fun _ => nofun) then_

theorem ends_ite {condition : Prop} [Decidable condition] {yes no : Program α}
    (holds : condition → yes.run.Grounded (Allows expected) (Ends deeds post) deeds)
    (fails : ¬ condition → no.run.Grounded (Allows expected) (Ends deeds post) deeds) :
    (if condition then yes else no).run.Grounded (Allows expected) (Ends deeds post) deeds := by
  split
  · next yes => exact holds yes
  · next no => exact fails no

theorem ends_bind {mid : Deeds → β → Prop} {call : Program β}
    (first : call.run.Grounded (Allows expected) (Ends deeds mid) deeds)
    (then_ : ∀ now value, deeds ⊆ now → mid now value →
      (k value).run.Grounded (Allows expected) (Ends now post) now) :
    (call >>= k).run.Grounded (Allows expected) (Ends deeds post) deeds :=
  .andThen first (fun _ _ _ => nofun) fun now value ends =>
    (then_ now value (ends value rfl).1 (ends value rfl).2).mono fun _ _ later => later.from (ends value rfl).1

theorem ends_mono {goal : Deeds → α → Prop} {call : Program α} (grounded : call.run.Grounded (Allows expected) (Ends deeds post) deeds)
    (weaker : ∀ now value, deeds ⊆ now → post now value → goal now value) :
    call.run.Grounded (Allows expected) (Ends deeds goal) deeds :=
  grounded.mono fun now _ ends value same => ⟨(ends value same).1,weaker now value (ends value same).1 (ends value same).2⟩

theorem ends_asks {call : Program α} (asks : Asks call) :
    call.run.Grounded (Allows expected) (Ends deeds fun _ _ => True) deeds :=
  (Halts.grounded asks fun _ _ asked => .keeps (Command.keeps_of_asks asked)).mono fun _ _ subset _ _ => ⟨subset,True.intro⟩
end

/-! ### Checks of volumes -/

section
variable {expected : Resources} {deeds : Deeds}

theorem Checked.later {name : String} {check : Deeds} (checked : Checked expected name check) (more : Deeds) :
    Checked expected name (more ++ check) := by
  obtain ⟨volume,users,inspected,recorded,asked,within⟩ := checked
  exact ⟨volume,users,List.mem_append_right _ inspected,recorded,List.mem_append_right _ asked,within⟩

/-- Deeds of a check of listed volumes, which has found these as recorded. -/
structure Reviews (expected : Resources) (listed : List String) (checked : List (String × Json)) (check : Deeds) : Prop where
  inspects : ∀ deed ∈ check, inspects deed = true
  only : ∀ (name : String) (volume : Volume), Deed.did (.inspectVolume name) volume ∈ check → name ∈ listed
  each : ∀ entry ∈ checked, entry.1 ∈ listed → Checked expected entry.1 check

theorem exclusiveVolumes_grounded (listed : List String) (rest : List (String × Json)) (recorded : rest ⊆ expected.volumes) :
    (exclusiveVolumes expected listed rest).run.Grounded (Allows expected)
      (Ends deeds fun now _ => ∃ check, now = check ++ deeds ∧ Reviews expected listed rest check) deeds := by
  induction rest generalizing deeds with
  | nil => exact ends_value ⟨[],rfl,by simp,by simp,by simp⟩
  | cons entry rest ih =>
    obtain ⟨name,identity⟩ := entry
    have later : rest ⊆ expected.volumes := List.Subset.trans (List.subset_cons_self _ _) recorded
    rw [exclusiveVolumes]
    by_cases member : name ∈ listed
    · rw [if_pos member]
      refine ends_run (.keeps rfl) fun (volume : Volume) => ends_settle fun _ same =>
        ends_run (.keeps rfl) fun (users : List String) => ends_settle fun _ within => ends_mono (ih later) ?_
      rintro now _ _ ⟨check,rfl,reviews⟩
      obtain rfl := ensure_ok.mp same
      refine ⟨check ++ [.did (.volumeUsers name) users,.did (.inspectVolume name) volume],by simp,?_,?_,?_⟩
      · intro deed member
        rcases List.mem_append.mp member with member | member
        · exact reviews.inspects deed member
        · rcases List.mem_pair.mp member with rfl | rfl <;> rfl
      · intro other volume inspected
        rcases List.mem_append.mp inspected with inspected | inspected
        · exact reviews.only other volume inspected
        · rcases List.mem_pair.mp inspected with same | same
          · cases same
          · cases same
            exact member
      · have found : Checked expected name [.did (.volumeUsers name) users,.did (.inspectVolume name) volume] :=
          ⟨volume,users,by simp,recorded List.mem_cons_self,by simp,ensure_ok.mp within⟩
        intro other among listed
        rcases List.mem_cons.mp among with rfl | among
        · exact found.later check
        · obtain ⟨volume,users,inspected,recorded,asked,within⟩ := reviews.each other among listed
          exact ⟨volume,users,List.mem_append_left _ inspected,recorded,List.mem_append_left _ asked,within⟩
    · rw [if_neg member]
      refine ends_mono (ih later) ?_
      rintro now _ _ ⟨check,rfl,reviews⟩
      refine ⟨check,rfl,reviews.inspects,reviews.only,fun other among listed => ?_⟩
      rcases List.mem_cons.mp among with rfl | among
      · exact absurd listed member
      · exact reviews.each other among listed

theorem exclusive_grounded : (exclusive expected).run.Grounded (Allows expected)
    (Ends deeds fun now _ => Reviewed expected now) deeds := by
  refine ends_bind (ends_asks asks_exclusiveNetwork) fun now _ _ _ => ends_run (.keeps rfl) fun listed => ?_
  refine ends_mono (exclusiveVolumes_grounded listed expected.volumes (List.Subset.refl _)) ?_
  rintro _ _ _ ⟨check,rfl,reviews⟩
  refine ⟨check,now,listed,rfl,reviews.inspects,fun entry member => ⟨?_,reviews.each entry member⟩⟩
  rintro ⟨volume,_,inspected,_⟩
  exact reviews.only entry.1 volume inspected

/-! ### Removals -/

section
variable {installation : Installation}

theorem compared_grounded : (compared installation expected).run.Grounded (Allows expected)
    (Ends deeds fun _ _ => True) deeds := ends_asks asks_compared

theorem removeContainers_grounded (rest : List (String × String)) (recorded : rest ⊆ expected.containers) (saved : Saved deeds) :
    (removeContainers installation expected rest).run.Grounded (Allows expected) (Ends deeds fun _ _ => True) deeds := by
  induction rest generalizing deeds with
  | nil => exact ends_value True.intro
  | cons entry rest ih =>
    obtain ⟨name,id⟩ := entry
    have later : rest ⊆ expected.containers := List.Subset.trans (List.subset_cons_self _ _) recorded
    rw [removeContainers]
    refine ends_bind compared_grounded fun seen current up _ => ends_bind exclusive_grounded fun now _ on _ => ?_
    have saved : Saved now := on (up saved)
    split
    · refine ends_run ⟨fun _ => saved,?_,nofun,nofun⟩ fun _ => ih later (List.mem_cons_of_mem _ saved)
      rintro _ ⟨⟩
      exact List.mem_map_of_mem (recorded List.mem_cons_self)
    · exact ih later saved

theorem removeNetwork_grounded (saved : Saved deeds) :
    (removeNetwork expected).run.Grounded (Allows expected) (Ends deeds fun _ _ => True) deeds := by
  cases recorded : expected.networkId with
  | none =>
    rw [removeNetwork,recorded]
    exact ends_value True.intro
  | some network =>
    rw [removeNetwork,recorded]
    refine ends_run (.keeps rfl) fun (networks : List String) => ?_
    refine ends_ite (fun _ => ends_last ⟨fun _ => List.mem_cons_of_mem _ saved,nofun,?_,nofun⟩ fun _ => True.intro)
      fun _ => ends_value True.intro
    rintro _ ⟨⟩
    exact recorded

theorem removeVolumes_grounded (rest : List (String × Json)) (recorded : rest ⊆ expected.volumes) (saved : Saved deeds) :
    (removeVolumes expected rest).run.Grounded (Allows expected) (Ends deeds fun _ _ => True) deeds := by
  induction rest generalizing deeds with
  | nil => exact ends_value True.intro
  | cons entry rest ih =>
    obtain ⟨name,identity⟩ := entry
    have later : rest ⊆ expected.volumes := List.Subset.trans (List.subset_cons_self _ _) recorded
    rw [removeVolumes]
    refine ends_bind exclusive_grounded fun now _ on reviewed => ends_run (.keeps rfl) fun names => ?_
    have saved : Saved (.did .volumeNames names :: now) := List.mem_cons_of_mem _ (on saved)
    split
    · next member =>
      refine ends_run ⟨fun _ => saved,nofun,nofun,?_⟩ fun _ => ih later (List.mem_cons_of_mem _ saved)
      rintro _ ⟨⟩
      exact ⟨List.mem_map_of_mem (recorded List.mem_cons_self),names,now,member,rfl,reviewed⟩
    · exact ih later saved

theorem remove_grounded (saved : Saved deeds) :
    (remove installation expected).run.Grounded (Allows expected) (Ends deeds fun _ _ => True) deeds := by
  refine ends_bind compared_grounded fun _ _ first _ => ends_bind exclusive_grounded fun _ _ second _ => ?_
  refine ends_bind (removeContainers_grounded _ (List.Subset.refl _) (second (first saved))) fun _ _ third _ => ?_
  refine ends_bind compared_grounded fun _ _ fourth _ => ends_bind exclusive_grounded fun now _ fifth _ => ?_
  have saved : Saved now := fifth (fourth (third (second (first saved))))
  refine ends_bind (removeNetwork_grounded saved) fun _ _ last _ => ?_
  exact ends_bind (removeVolumes_grounded _ (List.Subset.refl _) (last saved)) fun _ _ _ _ => ends_asks asks_verifyRemoved

theorem retireLocked_grounded {home : Home} (authorized : authority installation home = .ok expected) :
    (retireLocked installation home).run.Grounded (Allows expected) (Ends deeds fun _ _ => True) deeds := by
  refine ends_settle fun receipt same => ?_
  obtain rfl := Except.ok.inj (authorized.symm.trans same)
  refine ends_bind compared_grounded fun _ _ _ _ => ends_bind exclusive_grounded fun _ _ _ _ => ?_
  refine ends_run (.keeps rfl) fun _ => ends_bind (remove_grounded List.mem_cons_self) fun _ _ _ _ => ?_
  exact ends_last (.keeps rfl) fun _ => True.intro
end

end

end Proofstorm.Retirement
