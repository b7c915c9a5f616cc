import Proofstorm.Startup.Steady

/-!
What a start has seen and done before it changes the volume or enters a native
program. It changes nothing before it has seen the volume empty (`Bare`), it
binds a marker only to what it was given and what it has read (`Bound`), and it
enters a native program, and succeeds, only after it has bound its first marker
on an empty volume (`Begun`) or has found every marker as it would bind it
(`Intact`). The readiness check changes nothing but the seal (`program_grounded`).
-/
namespace Proofstorm.Startup
open Proofstorm.Upload (Bytes Hash)
open Proofstorm.Interleaving
open Proofstorm.Core (Json)

/-! ### Facts about the deeds of a start -/

def Did (now : Deeds) (operation : Operation) (answer : operation.Answer) : Prop := Deed.did operation answer ∈ now

/-- A regular file with these bytes was found at the path. -/
structure Found (now : Deeds) (path : Path) (bytes : Bytes) : Prop where
  regular : ∃ metadata : Metadata, metadata.isFile = true ∧ Did now (.symlinkMetadata path) metadata
  read : ∃ limit, bytes.length ≤ limit ∧ Did now (.read path limit) (some bytes)

/-- A regular file that is not empty was found at the path. -/
def Present (now : Deeds) (path : Path) : Prop :=
  ∃ metadata : Metadata, metadata.isFile = true ∧ 0 < metadata.len ∧ Did now (.symlinkMetadata path) metadata

/-- A marker was written. -/
def Wrote (now : Deeds) (marker : String) (contents : Bytes) : Prop :=
  ∃ drawn, Did now (.persistNoclobber [] drawn contents marker) ()

def Holds (now : Deeds) (marker : String) (contents : Bytes) : Prop := Found now [marker] contents ∨ Wrote now marker contents

/-- The volume was seen to hold nothing but an empty `lost+found`. -/
def Bare (now : Deeds) : Prop :=
  ∃ listing : List (String × Bool), Did now (.readDir []) listing ∧
    ∀ entry ∈ listing, entry.1 = lostAndFound ∧ entry.2 = true ∧ Did now (.readDir [lostAndFound]) ([] : List (String × Bool))

def ReadsHsm (now : Deeds) (hsm : Bytes) : Prop := Did now (.read ["regtest","hsm_secret"] 65536) (some hsm)

/-- No native program was entered. -/
def entersDeed : Deed Machine Operation Operation.Answer → Bool
  | .did operation _ => operation.enters
  | _ => false

def Calm (now : Deeds) : Prop := ∀ deed ∈ now, entersDeed deed = false

def Request.markers : Request → List String
  | .prepareServer _ | .execServer _ => [serverStarted,server]
  | .execClnHold _ => [clnStarted,cln]
  | .clnHoldReady => [cln]
  | .execProcessor _ => [identityMarker]

/-- The marker that a start binds before the first initialization. -/
def Request.first : Request → String
  | .prepareServer _ | .execServer _ => serverStarted
  | .execClnHold _ | .clnHoldReady => clnStarted
  | .execProcessor _ => identityMarker

/-- A start that initializes native state where there is none. -/
def Request.initializes : Request → Bool
  | .prepareServer _ | .execClnHold _ | .execProcessor _ => true
  | _ => false

/-- A readiness check, not a start. -/
def Request.checks : Request → Bool
  | .clnHoldReady => true
  | _ => false

structure Extends (deeds now : Deeds) : Prop where
  subset : deeds ⊆ now
  calm : Calm deeds → Calm now

theorem Extends.refl (deeds : Deeds) : Extends deeds deeds := ⟨List.Subset.refl _,id⟩

theorem Extends.trans {a b c : Deeds} (first : Extends a b) (second : Extends b c) : Extends a c :=
  ⟨List.Subset.trans first.subset second.subset,second.calm ∘ first.calm⟩

theorem Extends.did {deeds : Deeds} {operation : Operation} (answer : operation.Answer) (outside : operation.enters = false) :
    Extends deeds (.did operation answer :: deeds) := by
  refine ⟨List.subset_cons_self _ _,fun calm deed member => ?_⟩
  rcases List.mem_cons.mp member with rfl | member
  · exact outside
  · exact calm deed member

theorem Extends.failed {deeds : Deeds} (operation : Operation) : Extends deeds (.failed operation :: deeds) := by
  refine ⟨List.subset_cons_self _ _,fun calm deed member => ?_⟩
  rcases List.mem_cons.mp member with rfl | member
  · rfl
  · exact calm deed member

section
variable {deeds now : Deeds}

theorem Found.later {path : Path} {bytes : Bytes} (found : Found deeds path bytes) (subset : deeds ⊆ now) : Found now path bytes := by
  obtain ⟨⟨metadata,file,looked⟩,limit,within,read⟩ := found
  exact ⟨⟨metadata,file,subset looked⟩,limit,within,subset read⟩

theorem Present.later {path : Path} (present : Present deeds path) (subset : deeds ⊆ now) : Present now path :=
  present.imp fun _ facts => ⟨facts.1,facts.2.1,subset facts.2.2⟩

theorem Wrote.later {marker : String} {contents : Bytes} (wrote : Wrote deeds marker contents) (subset : deeds ⊆ now) :
    Wrote now marker contents := wrote.imp fun _ did => subset did

theorem Holds.later {marker : String} {contents : Bytes} (holds : Holds deeds marker contents) (subset : deeds ⊆ now) :
    Holds now marker contents := holds.imp (·.later subset) (·.later subset)

theorem Bare.later (bare : Bare deeds) (subset : deeds ⊆ now) : Bare now := by
  obtain ⟨listing,listed,each⟩ := bare
  exact ⟨listing,subset listed,fun entry member => ⟨(each entry member).1,(each entry member).2.1,subset (each entry member).2.2⟩⟩
end

/-- After a call: it has entered nothing, and a value satisfies the postcondition. -/
structure Ends {α : Type} (deeds : Deeds) (post : Deeds → α → Prop) (now : Deeds) (outcome : Except Failure α) : Prop where
  extends_ : Extends deeds now
  value : ∀ a, outcome = .ok a → post now a

section
variable {α : Type} {deeds : Deeds} {post : Deeds → α → Prop}

theorem Ends.from {earlier now : Deeds} {outcome : Except Failure α} (ends : Ends deeds post now outcome)
    (extends_ : Extends earlier deeds) : Ends earlier post now outcome :=
  ⟨extends_.trans ends.extends_,ends.value⟩

theorem ends_error (error : Failure) : Ends deeds post deeds (.error error) := ⟨.refl _,nofun⟩
end

/-- Only then a call changes the volume. -/
def MayChange (request : Request) (now : Deeds) : Prop := (Bare now ∧ request.initializes = true) ∨ request.checks = true

variable {request : Request}

theorem MayChange.later {deeds now : Deeds} (may : MayChange request deeds) (subset : deeds ⊆ now) :
    MayChange request now := may.imp (fun facts => ⟨facts.1.later subset,facts.2⟩) id

/-- The native files that a start that initializes nothing asks for. -/
def NativeFiles (request : Request) (now : Deeds) : Prop :=
  match request with
  | .execClnHold around => (∀ material, tlsMaterial around = .ok material →
      ∀ entry ∈ material, Found now (nativeTlsPath entry.1) entry.2) ∧
        ∀ file ∈ [["regtest","lightningd.sqlite3"],["regtest","hold","hold.sqlite3"]], Present now file
  | .execProcessor _ => ∀ name ∈ databases, Present now [name]
  | _ => True

/-- The start has bound its first marker on an empty volume. -/
def Begun (request : Request) (now : Deeds) : Prop := Bare now ∧ ∃ contents, Wrote now request.first contents

theorem NativeFiles.later {deeds now : Deeds} (files : NativeFiles request deeds)
    (subset : deeds ⊆ now) : NativeFiles request now := by
  cases request with
  | execClnHold around =>
    exact ⟨fun material given entry member => (files.1 material given entry member).later subset,
      fun file member => (files.2 file member).later subset⟩
  | execProcessor around => exact fun name member => (files name member).later subset
  | prepareServer around => trivial
  | execServer around => trivial
  | clnHoldReady => trivial

theorem Begun.later {deeds now : Deeds} (begun : Begun request deeds) (subset : deeds ⊆ now) : Begun request now :=
  ⟨begun.1.later subset,begun.2.imp fun _ wrote => wrote.later subset⟩

section
variable [Bip39]

def ReadsSeed (now : Deeds) (seed : String) : Prop :=
  ∃ bytes, Did now (.read [serverData,"mnemonic"] 512) (some bytes) ∧ parseMnemonic bytes = .ok seed

theorem ReadsSeed.later {deeds now : Deeds} {seed : String} (reads : ReadsSeed deeds seed) (subset : deeds ⊆ now) :
    ReadsSeed now seed := reads.imp fun _ facts => ⟨subset facts.1,facts.2⟩
end

section
variable [Hash]

/-- What the seal of CLN and hold is bound to. -/
def ClnSealed (now : Deeds) (marker : String) (contents : Bytes) : Prop :=
  marker = cln ∧ ∃ hsm, ReadsHsm now hsm ∧ contents = utf8 (Hash.sha256 hsm)

theorem ClnSealed.later {deeds now : Deeds} {marker : String} {contents : Bytes}
    (sealed : ClnSealed deeds marker contents) (subset : deeds ⊆ now) : ClnSealed now marker contents := ⟨sealed.1,sealed.2.imp fun _ facts => ⟨subset facts.1,facts.2⟩⟩
end

section
variable [Hash] [Bip39]

/-- What a start of the Bark server binds its markers to. -/
def ServerBound (around : Surroundings) (now : Deeds) (marker : String) (contents : Bytes) : Prop :=
  ∃ context, serverContext around = .ok context ∧
    (marker = serverStarted ∧ contents = utf8 context ∨
      marker = server ∧ Holds now serverStarted (utf8 context) ∧
        ∃ seed, ReadsSeed now seed ∧ contents = utf8 (Hash.sha256 (utf8 (context ++ "\n" ++ seed))))

/-- What a start binds a marker to, of what it was given and what it has read. -/
def Bound (request : Request) (now : Deeds) (marker : String) (contents : Bytes) : Prop :=
  match request with
  | .prepareServer around => ServerBound around now marker contents
  | .execServer around => ServerBound around now marker contents
  | .execClnHold around => (∃ material, tlsMaterial around = .ok material ∧ marker = clnStarted ∧
      contents = utf8 (tlsFingerprint material)) ∨ ClnSealed now marker contents
  | .clnHoldReady => ClnSealed now marker contents
  | .execProcessor around => ∃ seed, processorSeed around = .ok seed ∧ marker = identityMarker ∧
      contents = utf8 (identityRecord "bark-wallet" seed)

/-- The start has found everything that was bound. -/
def Intact (request : Request) (now : Deeds) : Prop :=
  (∀ marker ∈ request.markers, ∃ contents, Found now [marker] contents ∧ Bound request now marker contents) ∧
    NativeFiles request now

/-- What a call does only after these deeds. -/
structure Allows (request : Request) (deeds : Deeds) (operation : Operation) : Prop where
  spares : operation.changes = true → operation.Spares ∧ MayChange request deeds
  bound : ∀ drawn contents name, operation = .persistNoclobber [] drawn contents name → Bound request deeds name contents
  enters : operation.enters = true → request.checks = false ∧ Calm deeds ∧ (Begun request deeds ∨ Intact request deeds)

/-- What a call has done or seen when it succeeds. -/
def Settled (request : Request) (now : Deeds) : Prop :=
  match request with
  | .clnHoldReady => ∃ contents, Holds now cln contents ∧ Bound .clnHoldReady now cln contents
  | request => Begun request now ∨ Intact request now

/-! ### Later deeds -/

section
variable {deeds now : Deeds}

variable {marker : String} {contents : Bytes}

theorem ServerBound.later {around : Surroundings}
    (bound : ServerBound around deeds marker contents) (subset : deeds ⊆ now) : ServerBound around now marker contents := by
  obtain ⟨context,given,⟨rfl,rfl⟩ | ⟨rfl,started,seed,reads,rfl⟩⟩ := bound
  · exact ⟨context,given,.inl ⟨rfl,rfl⟩⟩
  · exact ⟨context,given,.inr ⟨rfl,started.later subset,seed,reads.later subset,rfl⟩⟩

theorem Bound.later (bound : Bound request deeds marker contents)
    (subset : deeds ⊆ now) : Bound request now marker contents := by
  cases request with
  | prepareServer around => exact ServerBound.later bound subset
  | execServer around => exact ServerBound.later bound subset
  | execClnHold around => exact bound.imp id (ClnSealed.later · subset)
  | clnHoldReady => exact ClnSealed.later bound subset
  | execProcessor around => exact bound

theorem Intact.later (intact : Intact request deeds) (subset : deeds ⊆ now) : Intact request now :=
  ⟨fun marker member => (intact.1 marker member).imp fun _ facts => ⟨facts.1.later subset,facts.2.later subset⟩,
    intact.2.later subset⟩
end

/-! ### Rules -/

theorem Allows.looks {deeds : Deeds} {operation : Operation} (still : operation.changes = false)
    (outside : operation.enters = false) : Allows request deeds operation := by
  refine ⟨fun changes => ?_,?_,fun enters => ?_⟩
  · rw [still] at changes; cases changes
  · rintro _ _ _ rfl
    cases still
  · rw [outside] at enters; cases enters

section
variable {α β : Type} {request : Request} {deeds : Deeds} {post : Deeds → α → Prop}

theorem ends_value {value : α} (holds : post deeds value) :
    (pure value : Program α).run.Grounded (Allows request) (Ends deeds post) deeds := by
  refine ⟨.refl _,?_⟩
  rintro _ ⟨⟩
  exact holds

theorem ends_throw (error : Failure) : (throw error : Program α).run.Grounded (Allows request) (Ends deeds post) deeds :=
  ends_error error

theorem ends_submit {operation : Operation} {k : operation.Answer → Program α} (outside : operation.enters = false)
    (may : Allows request deeds operation)
    (then_ : ∀ answer, (k answer).run.Grounded (Allows request) (Ends (.did operation answer :: deeds) post)
      (.did operation answer :: deeds)) : (exec operation >>= k).run.Grounded (Allows request) (Ends deeds post) deeds :=
  .afterSubmit (fun _ => (ends_error _).from (.failed _)) may fun answer =>
    (then_ answer).mono fun _ _ ends => ends.from (.did answer outside)

/-- An operation that ends the call. -/
theorem ends_last {operation : Operation} {post : Deeds → operation.Answer → Prop} (outside : operation.enters = false)
    (may : Allows request deeds operation) (then_ : ∀ answer, post (.did operation answer :: deeds) answer) :
    (exec operation).run.Grounded (Allows request) (Ends deeds post) deeds := by
  refine ⟨may,fun answer => ⟨.did answer outside,?_⟩,fun error => (ends_error error).from (.failed _)⟩
  rintro _ ⟨⟩
  exact then_ answer

theorem ends_settle {outcome : Except Failure β} {k : β → Program α}
    (then_ : ∀ value, outcome = .ok value → (k value).run.Grounded (Allows request) (Ends deeds post) deeds) :
    (settle outcome >>= k).run.Grounded (Allows request) (Ends deeds post) deeds :=
  .afterSettle ends_error then_

/-- An outcome that ends the call. -/
theorem ends_settled {outcome : Except Failure α} (then_ : ∀ value, outcome = .ok value → post deeds value) :
    (settle outcome : Program α).run.Grounded (Allows request) (Ends deeds post) deeds :=
  ⟨.refl _,then_⟩

theorem ends_bind {mid : Deeds → β → Prop} {call : Program β} {k : β → Program α}
    (first : call.run.Grounded (Allows request) (Ends deeds mid) deeds)
    (then_ : ∀ now value, Extends deeds now → mid now value →
      (k value).run.Grounded (Allows request) (Ends now post) now) :
    (call >>= k).run.Grounded (Allows request) (Ends deeds post) deeds :=
  .andThen first (fun _ _ ends => ⟨ends.extends_,nofun⟩) fun now value ends =>
    (then_ now value ends.extends_ (ends.value value rfl)).mono fun _ _ later => later.from ends.extends_

/-- An operation whose failure is looked at. -/
theorem ends_try {operation : Operation} {k : Except Failure operation.Answer → Program α} (outside : operation.enters = false)
    (may : Allows request deeds operation)
    (success : ∀ answer, (k (.ok answer)).run.Grounded (Allows request) (Ends (.did operation answer :: deeds) post)
      (.did operation answer :: deeds))
    (failure : ∀ error, (k (.error error)).run.Grounded (Allows request) (Ends (.failed operation :: deeds) post)
      (.failed operation :: deeds)) :
    (attempt (exec operation) >>= k).run.Grounded (Allows request) (Ends deeds post) deeds := by
  rw [attempt_submit_bind]
  exact ⟨may,fun answer => (success answer).mono fun _ _ ends => ends.from (.did answer outside),
    fun error => (failure error).mono fun _ _ ends => ends.from (.failed _)⟩

theorem ends_mono {goal : Deeds → α → Prop} {call : Program α} (grounded : call.run.Grounded (Allows request) (Ends deeds post) deeds)
    (weaker : ∀ now value, Extends deeds now → post now value → goal now value) :
    call.run.Grounded (Allows request) (Ends deeds goal) deeds :=
  grounded.mono fun now _ ends => ⟨ends.extends_,fun value same => weaker now value ends.extends_ (ends.value value same)⟩

/-- What each call of a loop establishes holds of all of them after it. -/
theorem ends_forM {list : List β} {f : β → Program Unit} (done : β → Deeds → Prop)
    (lasting : ∀ b now later, Extends now later → done b now → done b later)
    (each : ∀ b ∈ list, ∀ now, Extends deeds now → (f b).run.Grounded (Allows request) (Ends now fun after _ => done b after) now) :
    (list.forM f).run.Grounded (Allows request) (Ends deeds fun now _ => ∀ b ∈ list, done b now) deeds := by
  induction list generalizing deeds with
  | nil => exact ends_value (by simp)
  | cons b rest ih =>
    refine ends_bind (each b List.mem_cons_self deeds (.refl _)) fun now _ extends_ here => ?_
    refine ends_mono (ih fun other member later more => each other (List.mem_cons_of_mem _ member) later (extends_.trans more)) ?_
    intro after _ more others other member
    rcases List.mem_cons.mp member with rfl | member
    · exact lasting other now after more here
    · exact others other member
end

end

end Proofstorm.Startup
