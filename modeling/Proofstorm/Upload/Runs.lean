import Proofstorm.Upload.Once

/-!
The runs of a workspace that begins without uploads. A transfer replaces its
target again after a call that replaced it and left no receipt: one that was cut
off between the two, or whose receipt could not be written. And `finish` does not
look at the request that is staged. Otherwise a transfer replaces its target at
most once, and never after `commit` or `finish` has returned for it
(`uploads_once`).
-/
namespace Proofstorm.Upload
open Proofstorm.Sequenced (Carries Record Run)
open Relation (ReflTransGen)

abbrev Entry := Record Command Workspace (Except Failure Receipt)

/-- A workspace without uploads. -/
def Fresh (w : Workspace) : Prop := w.uploads = .empty ∧ w.finished = .empty ∧ w.replaced = []

/-- A call that replaced its target has left the receipt. -/
def Settles (entry : Entry) : Prop :=
  entry.after.replaced ≠ entry.before.replaced → entry.after.finished.has entry.request.id

/-- `commit` or `finish` has returned for the transfer. -/
def Ends (id : String) (entry : Entry) : Prop :=
  entry.request.id = id ∧ (∀ around request input, entry.request ≠ .stage around request input) ∧
    ∃ receipt, entry.reply = some (.ok receipt)

/-- The call neither stages nor commits the transfer. -/
def Spares (id : String) (entry : Entry) : Prop :=
  Shrinks id entry.before entry.after ∧
    entry.after.replaced.filter (fun done => done.1.uploadId = id) =
      entry.before.replaced.filter fun done => done.1.uploadId = id

/-- The call does not succeed, and changes the workspace only by these steps. -/
def Refuses (steps : Workspace → Workspace → Prop) (entry : Entry) : Prop :=
  ReflTransGen steps entry.before entry.after ∧ ∀ receipt, entry.reply ≠ some (.ok receipt)

section
variable [Hash] {env : Workspace → Workspace → Prop} {log : List Entry} {state : Workspace}

section
variable (quiet : ∀ a b, env a b → Disturbs a b) (run : Run execute .io env code Fresh log state)
include quiet run

/-- At most so much is staged, in whatever run, and targets are replaced only with verified bytes. -/
theorem run_bounded :
    Bounded state ∧ ∀ done ∈ state.replaced, verify done.1 done.2 = .ok () := by
  induction run with
  | initial state fits =>
    obtain ⟨uploads,_,replaced⟩ := fits
    refine ⟨⟨?_,?_⟩,by simp [replaced]⟩
    · rw [uploads]
      exact Nat.zero_le _
    · rw [uploads]
      exact Nat.zero_le _
  | disturb _ changed ih =>
    have same := quiet _ _ changed
    refine ⟨⟨?_,?_⟩,?_⟩
    · rw [same.uploads]
      exact ih.1.directories
    · rw [same.uploads]
      exact ih.1.bytes
    · rw [same.replaced]
      exact ih.2
  | call _ command carries ih =>
    refine ⟨stays_bounded carries quiet ih.1,?_⟩
    rcases replaces_own carries quiet with same | ⟨_,content,verified,pushed⟩
    · rw [same]
      exact ih.2
    · intro done member
      rw [pushed] at member
      rcases List.mem_cons.mp member with rfl | earlier
      · exact verified
      · exact ih.2 done earlier

/-- A different request under a finished id is refused, in whatever run. -/
theorem run_refused_finished :
    ∀ entry ∈ log, ∀ receipt, entry.before.finished.find entry.request.id = some receipt →
      receipt ≠ entry.request.request → Refuses env entry := by
  induction run with
  | initial => exact fun _ member => nomatch member
  | disturb _ _ ih => exact ih
  | call _ command carries ih =>
    intro entry member receipt there differs
    rcases List.mem_cons.mp member with rfl | earlier
    · exact refused_finished carries quiet there differs
    · exact ih entry earlier receipt there differs

/-- A different request under a staged id is refused where `finish` has only the staged ones. -/
theorem run_refused_staged (fits : ∀ entry ∈ log, entry.request.Fits entry.before) :
    Agree state ∧ ∀ entry ∈ log, ∀ manifest, manifestOf entry.request.id entry.before = some manifest →
      manifest ≠ entry.request.request → entry.request.id ∉ entry.request.expired →
        Refuses (fun a b => env a b ∨ Expires entry.request.expired a b) entry := by
  induction run with
  | initial state fresh =>
    refine ⟨fun id receipt manifest there _ => ?_,fun _ member => nomatch member⟩
    rw [fresh.2.1] at there
    exact nomatch there
  | disturb _ changed ih =>
    obtain ⟨agree,refused⟩ := ih fits
    have same := quiet _ _ changed
    refine ⟨fun id receipt manifest there staged => agree id receipt manifest ?_ ?_,refused⟩
    · rw [← same.finished]
      exact there
    · rw [← same.manifestOf]
      exact staged
  | call _ command carries ih =>
    obtain ⟨agree,refused⟩ := ih fun entry member => fits entry (List.mem_cons_of_mem _ member)
    have own := fits _ List.mem_cons_self
    refine ⟨stays_agreed carries quiet agree own,fun entry member manifest there differs stays => ?_⟩
    rcases List.mem_cons.mp member with rfl | earlier
    · exact refused_staged carries quiet agree own there differs stays
    · exact refused entry earlier manifest there differs stays
end

/-- Every call of the run but the last left the receipt of what it replaced. -/
structure Closed (log : List Entry) (state : Workspace) : Prop where
  once : (state.replaced.map fun done => done.1.uploadId).Nodup
  spares : log.Pairwise fun later earlier => ∀ id, Ends id earlier → Spares id later
  receipts : (∀ entry ∈ log, Settles entry) → (∀ done ∈ state.replaced, state.finished.has done.1.uploadId) ∧
    ∀ entry ∈ log, ∀ id, Ends id entry → state.finished.has id

theorem run_closed (quiet : ∀ a b, env a b → Disturbs a b) (run : Run execute .io env code Fresh log state)
    (settled : ∀ entry ∈ log.tail, Settles entry) : Closed log state := by
  induction run with
  | initial state fresh =>
    have none := fresh.2.2
    exact ⟨by simp [none],.nil,fun _ => ⟨by simp [none],by simp⟩⟩
  | disturb _ changed ih =>
    obtain ⟨once,spares,receipts⟩ := ih settled
    have same := quiet _ _ changed
    rw [← same.finished,← same.replaced] at receipts
    rw [← same.replaced] at once
    exact ⟨once,spares,receipts⟩
  | @call log before after reply _ command carries ih =>
    obtain ⟨once,spares,receipts⟩ := ih fun entry member => settled entry (List.mem_of_mem_tail member)
    obtain ⟨receipted,ended⟩ := receipts settled
    have stay : ∀ id, before.finished.has id → after.finished.has id := by
      intro id there
      obtain ⟨receipt,found⟩ := Option.isSome_iff_exists.mp (Table.find_isSome.mpr there)
      exact Table.has_of_find (receipts_stay carries quiet found)
    have own := replaces_own carries quiet
    have unreplaced : before.finished.find command.id = none →
        ∀ done ∈ before.replaced, done.1.uploadId ≠ command.id := by
      intro free done member same
      exact Table.not_has.mpr free (same ▸ receipted done member)
    refine ⟨?_,.cons (fun earlier member id ends => ?_) spares,fun all => ⟨?_,?_⟩⟩
    · rcases own with same | ⟨free,content,_,pushed⟩
      · rw [same]
        exact once
      · rw [pushed,List.map_cons]
        refine List.nodup_cons.mpr ⟨fun member => ?_,once⟩
        obtain ⟨done,there,same⟩ := List.mem_map.mp member
        exact unreplaced free done there same
    · have there := ended earlier member id ends
      obtain ⟨receipt,found⟩ := Option.isSome_iff_exists.mp (Table.find_isSome.mpr there)
      refine ⟨stays_closed carries quiet found,?_⟩
      rcases own with same | ⟨free,content,_,pushed⟩
      · show after.replaced.filter _ = before.replaced.filter _
        rw [same]
      · have other : command.id ≠ id := by
          rintro rfl
          exact nomatch free.symm.trans found
        show after.replaced.filter _ = before.replaced.filter _
        exact pushed ▸ List.filter_cons_of_neg (by simpa [Command.id] using other)
    · intro done member
      rcases own with same | ⟨free,content,_,pushed⟩
      · rw [same] at member
        exact stay _ (receipted done member)
      · have settles := all _ List.mem_cons_self (by
          show after.replaced ≠ before.replaced
          rw [pushed]
          exact List.cons_ne_self _ _)
        rw [pushed] at member
        rcases List.mem_cons.mp member with rfl | earlier
        · exact settles
        · exact stay _ (receipted done earlier)
    · intro entry member id ends
      rcases List.mem_cons.mp member with rfl | earlier
      · obtain ⟨rfl,stages,receipt,replied⟩ := ends
        have achieved := (carries_keeps carries quiet (fun _ => True) trivial (fun _ _ _ _ => trivial)
          fun _ _ _ _ => trivial).2 _ replied
        cases command with
        | stage around request input => exact absurd rfl (stages around request input)
        | commit around request =>
          obtain ⟨content,pushed⟩ := achieved
          refine all _ List.mem_cons_self ?_
          show after.replaced ≠ before.replaced
          rw [pushed]
          exact List.cons_ne_self _ _
        | finish around request => exact Table.has_of_find achieved
      · exact stay id (ended entry earlier id ends)

/-- In every run whose calls, but for the last, left the receipt of what they
    replaced, and whose calls of `finish` have the request that is staged if any
    is: an upload replaces its target at most once, and with bytes of its length
    and checksum; after `commit` or `finish` has returned for it, no call stages
    or commits it; a different request under its id is refused, and nothing is
    changed but that a call of `stage` removes abandoned transfers. And the
    staging is bounded. -/
theorem uploads_once (quiet : ∀ a b, env a b → Disturbs a b) (run : Run execute .io env code Fresh log state)
    (settled : ∀ entry ∈ log.tail, Settles entry) (fits : ∀ entry ∈ log, entry.request.Fits entry.before) :
    (state.replaced.map fun done => done.1.uploadId).Nodup ∧
      (∀ done ∈ state.replaced, done.2.length = done.1.bytes ∧ Hash.sha256 done.2 = done.1.sha256) ∧
      (log.Pairwise fun later earlier => ∀ id, Ends id earlier → Spares id later) ∧
      (∀ entry ∈ log, ∀ receipt, entry.before.finished.find entry.request.id = some receipt →
        receipt ≠ entry.request.request → Refuses env entry) ∧
      (∀ entry ∈ log, ∀ manifest, manifestOf entry.request.id entry.before = some manifest →
        manifest ≠ entry.request.request → entry.request.id ∉ entry.request.expired →
          Refuses (fun a b => env a b ∨ Expires entry.request.expired a b) entry) ∧
      state.uploads.rows.length ≤ maxStagedUploads ∧ stagedBytes state.uploads.rows ≤ maxStagedBytes := by
  have closed := run_closed quiet run settled
  have bounded := run_bounded quiet run
  refine ⟨closed.once,fun done member => ?_,closed.spares,run_refused_finished quiet run,
    (run_refused_staged quiet run fits).2,bounded.1.directories,bounded.1.bytes⟩
  have verified := bounded.2 done member
  simp only [verify,ensure_ok,not_or,ne_eq,Decidable.not_not] at verified
  exact verified
end

/-! ### An upload that is committed twice -/

/-- The digest of the empty file, for the uploads of empty files that follow. -/
@[reducible] def emptyHash : Hash := ⟨fun _ => "e3b0c44298fc1c149afbf4c8996fb92427ae41e4649b934ca495991b7852b855"⟩

def emptyUpload : UploadRequest where
  uploadId := String.ofList (List.replicate 64 '1')
  path := "file"
  bytes := 0
  sha256 := "e3b0c44298fc1c149afbf4c8996fb92427ae41e4649b934ca495991b7852b855"
  executable := false

def workspace : Workspace := ⟨.empty,.empty,fun _ => none,[]⟩

/-- The call makes so many steps in the workspace. -/
def after (steps : Nat) (command : Command) (w : Workspace) : Option (Except Failure Receipt) × Workspace :=
  Sequenced.advanced execute steps (@code emptyHash command) w

def stageEmpty : Command := .stage ⟨[],[]⟩ emptyUpload []
def commitEmpty : Command := .commit ⟨[],[]⟩ emptyUpload

def staged : Workspace := (after 40 stageEmpty workspace).2
def committed : Workspace := (after 40 commitEmpty staged).2
/-- The commit is cut off once the target is replaced. -/
def cutOff : Workspace := (after 6 commitEmpty staged).2
/-- The target is edited, and the commit is sent again. -/
def edited : Workspace := cutOff.put ["file"] (.file [1] false)
def twice : Workspace := (after 40 commitEmpty edited).2

theorem staged_run : @Run _ _ _ _ _ _ execute .io Disturbs (@code emptyHash) Fresh
    [⟨stageEmpty,workspace,staged,(after 40 stageEmpty workspace).1⟩] staged :=
  .call (.initial workspace ⟨rfl,rfl,rfl⟩) stageEmpty (Sequenced.advanced_carries 40 _ workspace)

theorem uploads_once_empty : (committed.replaced.map fun done => done.1.uploadId).Nodup ∧
    committed.replaced = [(emptyUpload,[])] := by
  have run := staged_run.call commitEmpty (Sequenced.advanced_carries 40 _ staged)
  have same : staged.replaced = workspace.replaced := by decide +kernel
  refine ⟨(@uploads_once emptyHash Disturbs _ committed (fun _ _ same => same) run ?_ ?_).1,by decide +kernel⟩
  · intro entry member changed
    rw [List.tail_cons,List.mem_singleton] at member
    subst member
    exact absurd same changed
  · intro entry member around request is
    rcases List.mem_cons.mp member with rfl | member
    · exact nomatch is
    · rw [List.mem_singleton] at member
      subst member
      exact nomatch is

/-- The second commit overwrites the edit. -/
theorem not_always_once : ¬ ∀ (log : List Entry) (state : Workspace),
    @Run _ _ _ _ _ _ execute .io Disturbs (@code emptyHash) Fresh log state →
      (state.replaced.map fun done => done.1.uploadId).Nodup := by
  intro once
  have cut := staged_run.call commitEmpty (Sequenced.advanced_carries 6 _ staged)
  have edit : Disturbs cutOff edited := ⟨rfl,rfl,rfl⟩
  have again := (cut.disturb edit).call commitEmpty (Sequenced.advanced_carries 40 _ edited)
  exact absurd (once _ twice again) (by decide +kernel)
end Proofstorm.Upload
