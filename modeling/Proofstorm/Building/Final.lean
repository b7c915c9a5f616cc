import Proofstorm.Building.Builds

/-!
What the passes over one build come to, one after the other and each on a copy that
the server has served. A pass looks at its copy alone: a copy that lags behind
writes over the end of the build, and creates its Job again. Where no pass that
begins after the end has an older copy, and none that misses the Job has a copy
without its start (`Timely`), the end of the build is final and its own
(`outcome_final`).
-/
namespace Proofstorm.Building
open Proofstorm.Core (CandidateBuild CandidateBuildPhase Json)
open Proofstorm.Interleaving
open Proofstorm.Sequenced (Carries Record Run)
open Proofstorm.Store (validateCandidateUpdate)
open Relation (ReflTransGen)

abbrev Entry := Record Build World (Except Failure Unit)

/-- The copy is one that the server had served when the pass began. -/
def Copied (entry : Entry) : Prop := entry.request ∈ entry.before.served

def World.Unfinished (world : World) : Prop := ∀ status, world.build.status = some status → status.phase.terminal = false

/-- A pass that begins after the end of the build has a copy that shows an end, and
    one that neither shows an end nor the start does not miss a Job that was created. -/
structure Timely (entry : Entry) : Prop where
  final : entry.request.terminal = false → entry.before.Unfinished
  sought : entry.request.terminal = false → startedAt entry.request = none → entry.after.missed = entry.before.missed

section
variable [Functions]

/-- A status of success names a digest that a pod of the Job has reported. -/
def Reported (world : World) (status : Status) : Prop :=
  status.phase = .succeeded → ∃ pod ∈ world.past, ∃ message digest, terminationMessage pod "buildkit" = some message ∧
    receiptDigest message = some digest ∧ validSha256Digest digest = true ∧
      status.image = some s!"{world.build.spec.imageRepository}@{digest}"

end

/-! ### What happens between the steps -/

/-- What the others leave of a state. -/
structure Later (a b : World) : Prop where
  status : b.build.status = a.build.status
  spec : b.build.spec = a.build.spec
  missed : b.missed = a.missed
  created : b.created = a.created
  past : a.past ⊆ b.past
  pods : a.pods ⊆ a.past → b.pods ⊆ b.past

theorem Meanwhile.later {a b : World} (step : Meanwhile a b) : Later a b := by
  cases step with
  | pods =>
    exact ⟨rfl,rfl,rfl,rfl,fun _ member => List.mem_append_right _ member,fun _ _ member => List.mem_append_left _ member⟩
  | _ => exact ⟨rfl,rfl,rfl,rfl,fun _ member => member,fun known => known⟩

/-- The state of the build while a pass with a copy that has not ended goes on. -/
structure Alive (copy : Build) (missed : Nat) (world : World) : Prop where
  unfinished : world.Unfinished
  spec : world.build.spec = copy.spec
  since : missed ≤ world.missed
  pods : world.pods ⊆ world.past

section
variable {copy : Build} {missed : Nat} {a b : World}

theorem Alive.later (alive : Alive copy missed a) (later : Later a b) : Alive copy missed b where
  unfinished := fun status there => alive.unfinished status (later.status ▸ there)
  spec := later.spec.trans alive.spec
  since := later.missed ▸ alive.since
  pods := later.pods alive.pods

/-- A fact that the others leave alone, through any number of their steps. -/
theorem stable_of {kept : World → Prop} (stable : ∀ a b, kept a → Later a b → kept b) :
    ∀ a b, kept a → ReflTransGen Meanwhile a b → kept b := by
  intro a b holds steps
  induction steps with
  | refl => exact holds
  | tail _ step ih => exact stable _ _ ih step.later
end

theorem copy_open {copy : Build} {status : Status} (open_ : copy.terminal = false) (there : copy.status = some status) :
    status.phase.terminal = false := by
  simpa [Build.terminal,there] using open_

section
variable {kept : World → Prop}

theorem reads_archivedLog {pods : List Pod} {container : String} :
    Keeps kept (fun _ => False) (archivedLog pods container) fun _ => True := by
  rw [archivedLog]
  split <;> simp

theorem reads_archive : Keeps kept (fun _ => False) archiveCandidateLogs fun _ => True := by
  have log : ∀ pods container, Keeps kept (fun _ => False) (archivedLog pods container) fun _ => True :=
    fun pods container => reads_archivedLog
  simp only [archiveCandidateLogs,clock,keeps_bind,keeps_query,keeps_pure]
  exact fun _ _ pods _ => keeps_mono (log pods _) fun _ _ => keeps_mono (log pods _) fun _ _ => by simp

theorem reads_diagnostics {copy : Build} : Keeps kept (fun _ => False) (diagnosticsOf copy) fun _ => True := by
  rw [diagnosticsOf]
  split
  · exact keeps_pure.mpr trivial
  · exact reads_archive

theorem reads_started {copy : Build} : Keeps kept (fun _ => False) (startedOrNow copy) fun _ => True := by
  rw [startedOrNow]
  split <;> simp [clock]

theorem reads_clock : Keeps kept (fun _ => False) clock fun _ => True := by
  simp [clock]
end

section
variable [Functions]

/-- What a pass needs where it writes a status or applies the Job. -/
def Needs (copy : Build) (missed : Nat) (statement : Statement) (world : World) : Prop :=
  match statement with
  | .applyStatus status => world.Unfinished ∧ Reported world status
  | .applyJob => world.Unfinished ∧ copy.terminal = false ∧ startedAt copy = none ∧
      (world.missed = missed → world.created = [])
  | _ => True

abbrev Passes {α : Type} (copy : Build) (missed : Nat) (call : Program α) (world : World) : Prop :=
  call.run.Meets execute Meanwhile (Needs copy missed) (fun _ _ => True) world

/-! ### The pass -/

section
variable {copy : Build} {missed : Nat} {world : World} {α β : Type}

variable {kept : World → Prop} {pods : List Pod}

/-- The rest of a pass that begins with steps that only read. -/
theorem passes_reads {call : Program α} {k : α → Program β} {post : α → Prop}
    (stable : ∀ a b, kept a → Later a b → kept b) (reads : Keeps kept (fun _ => False) call post)
    (holds : kept world) (then_ : ∀ value now, kept now → post value → Passes copy missed (k value) now) :
    Passes copy missed (call >>= k) world := by
  have meets : call.run.Meets execute Meanwhile (Needs copy missed) (OnSuccess fun value now => kept now ∧ post value) world := by
    rw [Keeps] at reads
    generalize call.run = steps at reads
    induction steps generalizing world with
    | done result =>
      intro now later
      cases result with
      | ok value => exact ⟨stable_of stable _ _ holds later,reads value rfl⟩
      | error error => trivial
    | read next ih =>
      intro now later
      have here := stable_of stable _ _ holds later
      exact ih now here (reads now here)
    | write statement next => exact reads.1.elim
  exact meets.andThen (fun _ _ => trivial) fun value now found => then_ value now found.1 found.2

theorem reads_failureMessage {status : JobStatus} :
    Keeps kept (fun _ => False) (candidateFailureMessage status pods) fun _ => True := by
  rw [candidateFailureMessage]
  split <;> simp

/-- A pass that writes no status and does not apply the Job. -/
theorem passes_idle {call : Program α}
    (idle : Keeps (fun _ => True) (fun statement => ∀ world, Needs copy missed statement world) call fun _ => True) :
    Passes copy missed call world :=
  (Call.Within.meets idle world).mono fun _ _ _ => trivial

/-- A patch is skipped where the copy has the status. -/
theorem passes_patch {status : Status} {k : Unit → Program β} {after : World → Prop}
    (stable : ∀ a b, kept a → Later a b → kept b) (holds : kept world)
    (allowed : ∀ now, kept now → Needs copy missed (.applyStatus status) now) (skipped : ∀ now, kept now → after now)
    (applied : ∀ now, kept now → after { now with
      build := { now.build with status := some status }, served := { now.build with status := some status } :: now.served })
    (then_ : ∀ now, after now → Passes copy missed (k ()) now) : Passes copy missed (patchCandidateStatus copy status >>= k) world := by
  rw [patchCandidateStatus]
  split
  · exact then_ world (skipped world holds)
  · refine .afterSubmit_kept (stable_of stable) holds (fun _ _ _ => trivial) allowed ?_
    rintro now _ _ here ⟨⟩
    exact then_ _ (applied now here)

theorem passes_lastPatch {status : Status} (stable : ∀ a b, kept a → Later a b → kept b)
    (holds : kept world) (allowed : ∀ now, kept now → Needs copy missed (.applyStatus status) now) :
    Passes copy missed (patchCandidateStatus copy status) world := by
  have whole : Passes copy missed (patchCandidateStatus copy status >>= fun _ => pure ()) world :=
    passes_patch stable holds allowed (fun _ _ => trivial) (fun _ _ => trivial) fun _ (_ : True) _ _ => trivial
  rwa [bind_pure] at whole

theorem passes_keepTerminal : Passes copy missed (keepTerminal copy) world := by
  refine passes_idle ?_
  rw [keepTerminal]
  split
  · simp only [keeps_bind,keeps_submit]
    refine ⟨fun _ => trivial,fun found => ?_⟩
    cases found with
    | some job => exact keeps_submit.mpr ⟨fun _ => trivial,fun _ => trivial⟩
    | none => exact keeps_pure.mpr trivial
  · exact keeps_pure.mpr trivial

/-- A status without success needs nothing more. -/
theorem needs_status {status : Status} (alive : Alive copy missed world) (other : status.phase ≠ .succeeded) :
    Needs copy missed (.applyStatus status) world :=
  ⟨alive.unfinished,fun success => absurd success other⟩

theorem passes_cancelBuild (open_ : copy.terminal = false) (alive : Alive copy missed world) :
    Passes copy missed (cancelBuild copy) world := by
  have stable : ∀ a b, Alive copy missed a → Later a b → Alive copy missed b := fun _ _ => Alive.later
  have archived : (copy.status.getD .default).phase.terminal = false := by
    cases there : copy.status with
    | none => rfl
    | some status => exact copy_open open_ there
  have unsuccessful : ∀ {phase : CandidateBuildPhase}, phase.terminal = false → phase ≠ .succeeded := by
    rintro phase running rfl
    exact nomatch running
  rw [cancelBuild]
  refine passes_reads stable reads_diagnostics alive fun diagnostics now alive _ => ?_
  refine passes_patch stable alive (fun _ here => needs_status here (unsuccessful archived)) (fun _ here => here) ?_ ?_
  · refine fun now here => ⟨?_,here.spec,here.since,here.pods⟩
    rintro _ ⟨⟩
    exact archived
  · intro now alive
    have deleted : (submit Statement.deleteJob : Program Unit).run.Meets execute Meanwhile (Needs copy missed)
        (fun _ now => Alive copy missed now) now := by
      intro now later
      have here := stable_of stable _ _ alive later
      refine ⟨trivial,fun answer after executed => ?_,fun error last later => stable_of stable _ _ here later⟩
      simp only [execute,bind_ok,ensure_ok,pure_ok] at executed
      obtain ⟨_,_,same⟩ := executed
      cases same
      have still : Alive copy missed { now with job := none } := ⟨here.unfinished,here.spec,here.since,here.pods⟩
      exact fun last later => stable_of stable _ _ still later
    refine .afterAttempt deleted fun outcome now alive => ?_
    have ended : Passes copy missed (clock >>= fun now => patchCandidateStatus copy { Status.default with
        phase := .cancelled
        diagnostics := some diagnostics
        observedGeneration := copy.generation
        jobName := some (jobName copy)
        startedAtUnix := startedAt copy
        completedAtUnix := some now }) now :=
      passes_reads stable reads_clock alive fun _ now here _ =>
        passes_lastPatch stable here fun _ here => needs_status here (by simp)
    split
    · exact ended
    · exact ended
    · exact fun _ _ => trivial

/-- The state of a pass that has not found the Job. -/
structure Missing (copy : Build) (missed : Nat) (world : World) : Prop extends Alive copy missed world where
  sought : world.created = [] ∨ missed < world.missed

omit [Functions] in
theorem Missing.later {a b : World} (missing : Missing copy missed a) (later : Later a b) : Missing copy missed b where
  toAlive := missing.toAlive.later later
  sought := by
    rw [later.created,later.missed]
    exact missing.sought

theorem passes_beginBuild (open_ : copy.terminal = false) (unstarted : startedAt copy = none → Missing copy missed world)
    (alive : Alive copy missed world) : Passes copy missed (beginBuild copy) world := by
  have stable : ∀ a b, Alive copy missed a → Later a b → Alive copy missed b := fun _ _ => Alive.later
  rw [beginBuild]
  split
  · exact passes_reads stable reads_archive alive fun _ now alive _ =>
      passes_reads stable reads_clock alive fun _ now alive _ =>
        passes_lastPatch stable alive fun _ here => needs_status here (by simp)
  · rename_i none_
    split
    · exact fun _ _ => trivial
    · have unrecorded : startedAt copy = none := by simpa using none_
      have missing := unstarted unrecorded
      refine .afterSubmit_kept (stable_of fun _ _ => Missing.later) missing (fun _ _ _ => trivial) ?_ ?_
      · exact fun now here => ⟨here.unfinished,open_,unrecorded,fun same => here.sought.resolve_right (by omega)⟩
      · intro now _ after here executed
        have alive : Alive copy missed after := by
          simp only [execute] at executed
          split at executed <;> cases executed
          · exact here.toAlive
          · exact ⟨here.unfinished,here.spec,here.since,here.pods⟩
        exact passes_reads stable reads_clock alive fun _ now alive _ =>
          passes_lastPatch stable alive fun _ here => needs_status here (by simp)

/-- A success is that of a digest that one of the pods has reported. -/
theorem reads_outcome {status : JobStatus} {failed : Bool} {started : Option Int} :
    Keeps kept (fun _ => False) (outcome copy status failed started pods) fun terminal =>
      terminal.phase = .succeeded → ∃ digest, reportedDigest pods = some digest ∧ validSha256Digest digest = true ∧
        terminal.image = some s!"{copy.spec.imageRepository}@{digest}" := by
  rw [outcome]
  split
  · rw [keeps_bind]
    exact keeps_mono reads_failureMessage fun _ _ => by simp [clock]
  · simp only [keeps_bind,clock,keeps_query]
    intro _ _ now _
    split
    · rename_i valid
      rw [keeps_pure]
      intro _
      cases reported : reportedDigest pods with
      | none => simp [reported] at valid
      | some digest => exact ⟨digest,rfl,by simpa [reported] using valid,by simp⟩
    · simp

theorem reported_of_digest {status : Status} (spec : world.build.spec = copy.spec)
    (known : pods ⊆ world.past) (success : status.phase = .succeeded → ∃ digest, reportedDigest pods = some digest ∧
      validSha256Digest digest = true ∧ status.image = some s!"{copy.spec.imageRepository}@{digest}") :
    Reported world status := by
  intro succeeded
  obtain ⟨digest,reported,valid,image⟩ := success succeeded
  obtain ⟨message,first,receipt⟩ := Option.bind_eq_some_iff.mp reported
  obtain ⟨pod,member,terminated⟩ := List.exists_of_findSome?_eq_some first
  exact ⟨pod,known member,message,digest,terminated,receipt,valid,by rw [spec]; exact image⟩

theorem passes_observeJob {observed : Job} (alive : Alive copy missed world) :
    Passes copy missed (observeJob copy observed) world := by
  have stable : ∀ a b, Alive copy missed a → Later a b → Alive copy missed b := fun _ _ => Alive.later
  rw [observeJob]
  refine passes_reads stable reads_started alive fun started now alive _ => ?_
  split
  · exact passes_lastPatch stable alive fun _ here => needs_status here (by simp)
  · refine .afterQuery (fun _ _ => trivial) ?_
    rintro seen pods later ⟨⟩
    have here := stable_of stable _ _ alive later
    have saw : ∀ a b, (Alive copy missed a ∧ seen.pods ⊆ a.past) → Later a b → Alive copy missed b ∧ seen.pods ⊆ b.past :=
      fun a b known later => ⟨known.1.later later,fun _ member => later.past (known.2 member)⟩
    refine passes_reads saw reads_outcome ⟨here,here.pods⟩ fun terminal now known success => ?_
    refine passes_reads saw reads_archive known fun diagnostics now known _ => ?_
    refine passes_patch saw known (fun now known => ⟨known.1.unfinished,?_⟩) (fun _ _ => trivial) (fun _ _ => trivial) ?_
    · exact reported_of_digest known.1.spec known.2 success
    · exact fun now (_ : True) => passes_idle (keeps_submit.mpr ⟨fun _ => trivial,fun _ => trivial⟩)

/-- A pass writes a status only over one that is no end. -/
theorem passes_code (fits : copy.terminal = false → Alive copy missed world) :
    (code copy).Meets execute Meanwhile (Needs copy missed) (fun _ _ => True) world := by
  have stable : ∀ a b, Alive copy missed a → Later a b → Alive copy missed b := fun _ _ => Alive.later
  rw [code,reconcileCandidateBuild]
  cases open_ : copy.terminal with
  | true => exact passes_keepTerminal
  | false =>
    rw [if_neg (by decide)]
    have alive := fits open_
    split
    · exact passes_cancelBuild open_ alive
    · refine .afterSubmit_kept (stable_of stable) alive (fun _ _ _ => trivial) (fun _ _ => trivial) ?_
      intro now answer after here executed
      cases executed
      have alive : Alive copy missed
          { now with missed := if now.job.isNone ∧ now.created ≠ [] then now.missed + 1 else now.missed } := by
        refine ⟨here.unfinished,here.spec,here.since.trans ?_,here.pods⟩
        show now.missed ≤ if now.job.isNone ∧ now.created ≠ [] then now.missed + 1 else now.missed
        split
        · exact Nat.le_succ _
        · exact Nat.le_refl _
      cases found : now.job with
      | some observed =>
        rw [found] at alive
        exact passes_observeJob alive
      | none =>
        rw [found] at alive
        refine passes_beginBuild open_ (fun _ => ⟨alive,?_⟩) alive
        by_cases created : now.created = []
        · exact .inl created
        · refine .inr ?_
          have since := here.since
          simp only [Option.isNone_none,true_and,ne_eq,created,not_false_eq_true,if_true]
          omega
end

/-! ### Runs -/

/-- The record tells of the build what the status does. -/
structure Agrees (record : CandidateBuild) (status : Status) : Prop where
  phase : record.phase = status.phase
  image : record.image = status.image
  errorCode : record.errorCode = status.errorCode
  errorMessage : record.errorMessage = status.message
  startedAtUnix : record.startedAtUnix = status.startedAtUnix
  completedAtUnix : record.completedAtUnix = status.completedAtUnix
  diagnostics : record.diagnostics = status.diagnostics

/-- The end of the build is final and its own. -/
structure Settled (world : World) : Prop where
  /-- No version of the build comes after an end and shows something else. -/
  final : world.served.Pairwise fun newer older =>
    ∀ status, older.status = some status → status.phase.terminal = true → newer.status = some status
  /-- The Job was created once at most, and not after an end. -/
  once : world.created.length ≤ 1 ∧ ∀ status, some status ∈ world.created → status.phase.terminal = false
  reported : ∀ build ∈ world.served, ∀ status, build.status = some status → status.phase = .succeeded →
    ∃ pod ∈ world.past, ∃ message digest, terminationMessage pod "buildkit" = some message ∧
      receiptDigest message = some digest ∧ validSha256Digest digest = true ∧
        status.image = some s!"{build.spec.imageRepository}@{digest}"
  recorded : world.record.phase.terminal = true →
    ∃ status, world.build.status = some status ∧ Agrees world.record status

/-- What every pass keeps, with what the server knows of the build. -/
structure Kept (world : World) : Prop where
  final : world.served.Pairwise fun newer older =>
    ∀ status, older.status = some status → status.phase.terminal = true → newer.status = some status
  newest : ∃ older, world.served = world.build :: older
  spec : ∀ build ∈ world.served, build.spec = world.build.spec
  pods : world.pods ⊆ world.past
  reported : ∀ build ∈ world.served, ∀ status, build.status = some status → Reported world status
  recorded : world.record.phase.terminal = true →
    ∃ status, world.build.status = some status ∧ Agrees world.record status

def World.Once (world : World) : Prop :=
  world.created.length ≤ 1 ∧ ∀ status, some status ∈ world.created → status.phase.terminal = false

variable {world after : World}

theorem Kept.ended (kept : Kept world) {build : Build} (served : build ∈ world.served) {status : Status}
    (there : build.status = some status) (terminal : status.phase.terminal = true) : world.build.status = some status := by
  obtain ⟨older,same⟩ := kept.newest
  have final := kept.final
  rw [same] at served final
  rcases List.mem_cons.mp served with rfl | earlier
  · exact there
  · exact (List.pairwise_cons.mp final).1 build earlier status there terminal

omit [Functions] in
theorem observe_agrees {candidate updated : CandidateBuild} {resource : Option Build}
    (observed : observe candidate resource = .ok (some updated)) :
    ∃ build status, resource = some build ∧ build.status = some status ∧ Agrees updated status := by
  unfold observe at observed
  split at observed
  · cases observed
  · cases resource with
    | none => cases observed
    | some build =>
      simp only [bind_ok] at observed
      obtain ⟨_,_,observed⟩ := observed
      cases there : build.status with
      | none =>
        rw [there] at observed
        cases observed
      | some status =>
        rw [there] at observed
        simp only at observed
        split at observed
        · cases observed
        · cases observed
          exact ⟨build,status,rfl,there,rfl,rfl,rfl,rfl,rfl,rfl,rfl⟩

/-- A new version that shows what the last one does. -/
theorem Kept.annotated (kept : Kept world) {build : Build} (status : build.status = world.build.status)
    (spec : build.spec = world.build.spec) :
    Kept { world with build := build, served := build :: world.served } := by
  obtain ⟨older,same⟩ := kept.newest
  have last : world.build ∈ world.served := same ▸ List.mem_cons_self
  refine ⟨List.pairwise_cons.mpr ⟨fun earlier served end_ there terminal => ?_,kept.final⟩,⟨_,rfl⟩,?_,kept.pods,?_,?_⟩
  · exact status.trans (kept.ended served there terminal)
  · intro version served
    rcases List.mem_cons.mp served with rfl | served
    · rfl
    · exact (kept.spec version served).trans spec.symm
  · intro version served shown there
    rw [Reported,spec]
    rcases List.mem_cons.mp served with rfl | served
    · exact kept.reported _ last shown (status ▸ there)
    · exact kept.reported version served shown there
  · intro terminal
    obtain ⟨shown,there,agrees⟩ := kept.recorded terminal
    exact ⟨shown,status.trans there,agrees⟩

theorem Reported.more {status : Status} {a b : World} (reported : Reported a status) (spec : b.build.spec = a.build.spec)
    (past : a.past ⊆ b.past) : Reported b status := by
  intro success
  obtain ⟨pod,member,rest⟩ := reported success
  rw [spec]
  exact ⟨pod,past member,rest⟩

theorem Kept.meanwhile (kept : Kept world) (step : Meanwhile world after) : Kept after := by
  cases step with
  | time | progress | vanish => exact ⟨kept.final,kept.newest,kept.spec,kept.pods,kept.reported,kept.recorded⟩
  | cancel generation => exact kept.annotated rfl rfl
  | pods pods logs =>
    refine ⟨kept.final,kept.newest,kept.spec,List.subset_append_left _ _,fun build served status there => ?_,kept.recorded⟩
    exact (kept.reported build served status there).more rfl (List.subset_append_right _ _)
  | observe candidate updated resource known served observed valid =>
    refine ⟨kept.final,kept.newest,kept.spec,kept.pods,kept.reported,fun terminal => ?_⟩
    obtain ⟨build,status,rfl,there,agrees⟩ := observe_agrees observed
    exact ⟨status,kept.ended (served build rfl) there (agrees.phase ▸ terminal),agrees⟩

/-- A status over one that is no end. -/
theorem Kept.applied (kept : Kept world) {status : Status} (unfinished : world.Unfinished) (reported : Reported world status) :
    Kept { world with
      build := { world.build with status := some status }
      served := { world.build with status := some status } :: world.served } := by
  have open_ : ∀ build ∈ world.served, ∀ end_, build.status = some end_ → end_.phase.terminal = false := by
    intro build served end_ there
    by_contra terminal
    have shown := kept.ended served there (by simpa using terminal)
    exact terminal (unfinished end_ shown)
  refine ⟨List.pairwise_cons.mpr ⟨fun build served end_ there terminal => ?_,kept.final⟩,⟨_,rfl⟩,?_,kept.pods,?_,?_⟩
  · exact nomatch terminal.symm.trans (open_ build served end_ there)
  · intro build served
    rcases List.mem_cons.mp served with rfl | served
    · rfl
    · exact kept.spec build served
  · intro build served shown there
    rcases List.mem_cons.mp served with rfl | served
    · cases there
      exact reported
    · exact kept.reported build served shown there
  · intro terminal
    obtain ⟨shown,there,agrees⟩ := kept.recorded terminal
    rw [agrees.phase,unfinished shown there] at terminal
    exact nomatch terminal

/-- What a step of a pass does besides writing a status. -/
structure Leaves (statement : Statement) (a b : World) : Prop where
  kept : Kept a → Kept b
  missed : a.missed ≤ b.missed
  created : b.created = a.created ∨ (statement = .applyJob ∧ b.missed = a.missed ∧ b.created = a.build.status :: a.created)

theorem execute_leaves {copy : Build} {missed : Nat} {statement : Statement} {answer : statement.Answer}
    (needs : Needs copy missed statement world) (executed : execute statement world = .ok (answer,after)) :
    Leaves statement world after := by
  have same : ∀ {w : World}, w.served = world.served → w.build = world.build → w.pods = world.pods → w.past = world.past →
      w.record = world.record → Kept world → Kept w := by
    intro w served build pods past record kept
    refine ⟨served ▸ kept.final,?_,?_,?_,?_,?_⟩
    · rw [served,build]
      exact kept.newest
    · rw [served,build]
      exact kept.spec
    · rw [pods,past]
      exact kept.pods
    · rw [served]
      exact fun version there status shown => (kept.reported version there status shown).more (by rw [build]) (by rw [past]; exact fun _ member => member)
    · rw [record,build]
      exact kept.recorded
  cases statement with
  | applyStatus status =>
    cases executed
    exact ⟨fun kept => kept.applied needs.1 needs.2,Nat.le_refl _,.inl rfl⟩
  | getJob =>
    cases executed
    refine ⟨same rfl rfl rfl rfl rfl,?_,.inl rfl⟩
    show world.missed ≤ if _ then world.missed + 1 else world.missed
    split
    · exact Nat.le_succ _
    · exact Nat.le_refl _
  | applyJob =>
    simp only [execute] at executed
    split at executed <;> cases executed
    · exact ⟨fun kept => kept,Nat.le_refl _,.inl rfl⟩
    · exact ⟨same rfl rfl rfl rfl rfl,Nat.le_refl _,.inr ⟨rfl,rfl,rfl⟩⟩
  | deleteJob =>
    simp only [execute,bind_ok,ensure_ok,pure_ok] at executed
    obtain ⟨_,_,done⟩ := executed
    cases done
    exact ⟨same rfl rfl rfl rfl rfl,Nat.le_refl _,.inl rfl⟩
  | patchJob =>
    simp only [execute,bind_ok,pure_ok] at executed
    obtain ⟨_,_,done⟩ := executed
    cases done
    exact ⟨same rfl rfl rfl rfl rfl,Nat.le_refl _,.inl rfl⟩

/-- What one pass leaves, wherever it is cut off. -/
theorem pass_kept {copy : Build} {reply : Option (Except Failure Unit)}
    (carries : Carries execute .unavailable Meanwhile (code copy) world reply after) (kept : Kept world) (once : world.Once)
    (spec : copy.spec = world.build.spec) (final : copy.terminal = false → world.Unfinished)
    (sought : copy.terminal = false → startedAt copy = none → after.missed = world.missed) : Kept after ∧ after.Once := by
  let Excused := fun now : World => copy.terminal = false → startedAt copy = none → now.missed = world.missed
  have fits : copy.terminal = false → Alive copy world.missed world :=
    fun open_ => ⟨final open_,spec.symm,Nat.le_refl _,kept.pods⟩
  let Standing := fun now : World => Kept now ∧ world.missed ≤ now.missed ∧ (Excused now → now.Once)
  have first : Standing world := ⟨kept,Nat.le_refl _,fun _ => once⟩
  have stable : ∀ a b, Standing a → Meanwhile a b → Standing b := by
    rintro a b ⟨kept,since,once⟩ step
    have later := step.later
    refine ⟨kept.meanwhile step,later.missed ▸ since,fun excused => ?_⟩
    rw [World.Once,later.created]
    exact once fun open_ unrecorded => later.missed ▸ excused open_ unrecorded
  have own : ∀ statement a answer b, Standing a → Needs copy world.missed statement a →
      execute statement a = .ok (answer,b) → Standing b := by
    rintro statement a answer b ⟨kept,since,once⟩ needs executed
    have leaves := execute_leaves needs executed
    refine ⟨leaves.kept kept,since.trans leaves.missed,fun excused => ?_⟩
    have before : Excused a := fun open_ unrecorded => by
      have now := excused open_ unrecorded
      have grown := leaves.missed
      omega
    rcases leaves.created with same | ⟨rfl,missed,created⟩
    · rw [World.Once,same]
      exact once before
    · obtain ⟨unfinished,open_,unrecorded,none_⟩ := needs
      rw [World.Once,created,none_ (before open_ unrecorded)]
      refine ⟨Nat.le_refl _,fun status member => ?_⟩
      exact unfinished status (List.mem_singleton.mp member).symm
  obtain ⟨kept,_,once⟩ := (carries.meets (passes_code fits) first stable own).1
  exact ⟨kept,once sought⟩

theorem run_kept {log : List Entry} (run : Run execute .unavailable Meanwhile code Fresh log world)
    (copied : ∀ entry ∈ log, Copied entry) (timely : ∀ entry ∈ log, Timely entry) : Kept world ∧ world.Once := by
  induction run with
  | initial state fresh =>
    have shown : ∀ build ∈ state.served, build = state.build := by simp [fresh.served]
    refine ⟨⟨by simp [fresh.served],⟨[],fresh.served⟩,fun build served => by rw [shown build served],?_,?_,?_⟩,?_⟩
    · simp [fresh.past]
    · intro build served status there
      rw [shown build served,fresh.status] at there
      exact nomatch there
    · exact fun terminal => nomatch terminal.symm.trans fresh.open_
    · simp [World.Once,fresh.created]
  | disturb _ changed ih =>
    obtain ⟨kept,once⟩ := ih copied timely
    refine ⟨kept.meanwhile changed,?_⟩
    rw [World.Once,changed.later.created]
    exact once
  | call _ copy carries ih =>
    obtain ⟨kept,once⟩ := ih (fun entry member => copied entry (List.mem_cons_of_mem _ member))
      fun entry member => timely entry (List.mem_cons_of_mem _ member)
    have own := timely _ List.mem_cons_self
    exact pass_kept carries kept once (kept.spec copy (copied _ List.mem_cons_self)) own.final own.sought

theorem Kept.copied (kept : Kept world) : world.build ∈ world.served := by
  obtain ⟨older,same⟩ := kept.newest
  exact same ▸ List.mem_cons_self

/-- In a run whose passes are timely the end of the build is final and its own. -/
theorem outcome_final {log : List Entry} (run : Run execute .unavailable Meanwhile code Fresh log world)
    (copied : ∀ entry ∈ log, Copied entry) (timely : ∀ entry ∈ log, Timely entry) : Settled world := by
  obtain ⟨kept,once⟩ := run_kept run copied timely
  refine ⟨kept.final,once,fun build served status there success => ?_,kept.recorded⟩
  rw [kept.spec build served]
  exact kept.reported build served status there success
end

/-! ### A copy that lags behind -/

def sampleDigest : String := "sha256:aaaaaaaaaaaaaaaaaaaaaaaaaaaaaaaaaaaaaaaaaaaaaaaaaaaaaaaaaaaaaaaa"

def sampleReceipt : String := "\x7b\"digest\":\"sha256:aaaaaaaaaaaaaaaaaaaaaaaaaaaaaaaaaaaaaaaaaaaaaaaaaaaaaaaaaaaaaaaa\"\x7d"

@[reducible] def sampleFunctions : Functions where
  parse text := if text = sampleReceipt then some (.object [("digest",.str sampleDigest)]) else none
  unrenderable _ := none
  actionFailure _ _ := .object [("code",.str "action_failed")]

def sampleSpec : Spec where
  provenance := none
  workspaceId := "w"
  candidateId := "fix"
  principalId := "p"
  implementation := "cdk-mint"
  baseVersion := "0.13.0"
  pullRequestUrl := "https://github.com/a/b/pull/1"
  repository := "https://github.com/a/b"
  commitSha := "1111111111111111111111111111111111111111"
  version := "fix"
  requestDigest := "sha256:1"
  acceptedAtUnix := 1
  imageRepository := "registry/cdk-mint"

def sampleRecord : CandidateBuild where
  diagnostics := none
  apiVersion := "v1"
  id := "fix"
  workspaceId := "w"
  principalId := "p"
  implementation := "cdk-mint"
  baseVersion := "0.13.0"
  pullRequestUrl := "https://github.com/a/b/pull/1"
  resourceName := "candidate-fix"
  requestDigest := "sha256:1"
  provenance := none
  buildFeatures := []
  phase := .pending
  acceptedAtUnix := 1
  startedAtUnix := none
  completedAtUnix := none
  repository := some "https://github.com/a/b"
  commitSha := some "1111111111111111111111111111111111111111"
  version := some "fix"
  image := none
  errorCode := none
  errorMessage := none

def sampleBuild : Build := ⟨"candidate-fix",sampleSpec,false,some 1,none⟩

def accepted : World :=
  ⟨2,sampleBuild,[sampleBuild],none,[],fun _ _ => .error "no log",sampleRecord,[sampleRecord],[],[],0⟩

def samplePod : Pod := ⟨"candidate-fix-build-1",[⟨"buildkit",some sampleReceipt⟩]⟩

section
attribute [local instance] sampleFunctions

/-- The state after a whole pass. -/
def passed (copy : Build) (world : World) : World := (Sequenced.advanced execute 30 (code copy) world).2

/-- The Job is created. -/
def building : World := passed accepted.build accepted

/-- The Job has succeeded, and a pod has reported the digest. -/
def built : World :=
  { building with job := some ⟨some ⟨some 1,none,none⟩,none⟩, pods := [samplePod], past := [samplePod] ++ building.past }

def finished : World := passed built.build built

def finishedRecord : CandidateBuild :=
  { sampleRecord with
    phase := .succeeded
    startedAtUnix := some 2
    completedAtUnix := some 2
    image := some "registry/cdk-mint@sha256:aaaaaaaaaaaaaaaaaaaaaaaaaaaaaaaaaaaaaaaaaaaaaaaaaaaaaaaaaaaaaaaa"
    diagnostics := finished.build.status.bind Status.diagnostics }

def recorded : World := { finished with record := finishedRecord, records := finishedRecord :: finished.records }

def pass (copy : Build) (world : World) : Entry :=
  ⟨copy,world,passed copy world,(Sequenced.advanced execute 30 (code copy) world).1⟩

theorem run_pass {log : List Entry} {world : World} (run : Run execute .unavailable Meanwhile code Fresh log world)
    (copy : Build) : Run execute .unavailable Meanwhile code Fresh (pass copy world :: log) (passed copy world) :=
  run.call copy (Sequenced.advanced_carries 30 (code copy) world)

theorem accepted_fresh : Fresh accepted := ⟨rfl,rfl,rfl,rfl,rfl,rfl,rfl⟩

theorem building_run : Run execute .unavailable Meanwhile code Fresh [pass accepted.build accepted] building :=
  run_pass (.initial accepted accepted_fresh) accepted.build

theorem built_run : Run execute .unavailable Meanwhile code Fresh [pass accepted.build accepted] built := by
  have job : building.job = some ⟨none,none⟩ := by decide +kernel
  have progress := building_run.disturb (.progress building ⟨none,none⟩ (some ⟨some 1,none,none⟩) job)
  exact progress.disturb (.pods _ [samplePod] building.logs)

theorem finished_run :
    Run execute .unavailable Meanwhile code Fresh [pass built.build built,pass accepted.build accepted] finished :=
  run_pass built_run built.build

theorem served_grows {statement : Statement} {world after : World} {answer : statement.Answer}
    (executed : execute statement world = .ok (answer,after)) : world.served ⊆ after.served := by
  cases statement with
  | applyStatus status =>
    cases executed
    exact List.subset_cons_self _ _
  | getJob =>
    cases executed
    exact List.Subset.refl _
  | applyJob =>
    simp only [execute] at executed
    split at executed <;> cases executed <;> exact List.Subset.refl _
  | _ =>
    simp only [execute,bind_ok,pure_ok] at executed
    obtain ⟨_,_,same⟩ := executed
    cases same
    exact List.Subset.refl _

/-- The server forgets no version. -/
theorem carries_served {call : Call World Statement Failure Statement.Answer (Except Failure Unit)} {world after : World}
    {reply : Option (Except Failure Unit)} (carries : Carries execute .unavailable Meanwhile call world reply after) :
    world.served ⊆ after.served := by
  induction carries with
  | cut | answer => exact List.Subset.refl _
  | disturb changed _ ih =>
    cases changed with
    | cancel => exact List.Subset.trans (List.subset_cons_self _ _) ih
    | _ => exact ih
  | @step call next state middle last did reply performed _ ih =>
    refine List.Subset.trans ?_ ih
    have committed := performed.committed () 0
    cases did with
    | none =>
      have same : middle = state := committed
      exact same ▸ List.Subset.refl _
    | some statement =>
      obtain ⟨answer,executed⟩ := committed
      exact served_grows executed

/-- A pass on the newest version is timely where the version shows an end or a start. -/
theorem pass_timely {copy : Build} {world : World} (open_ : copy.terminal = false → world.build.terminal = false)
    (sought : copy.terminal = false → startedAt copy = none → (passed copy world).missed = world.missed) :
    Timely (pass copy world) := by
  refine ⟨fun running status there => ?_,sought⟩
  have shown := open_ running
  rw [Build.terminal,show world.build.status = some status from there] at shown
  exact shown

theorem ok_of_toOption {ε α : Type} {result : Except ε α} {value : α} (same : result.toOption = some value) :
    result = .ok value := by
  cases result with
  | ok found => exact congrArg Except.ok (Option.some.inj same)
  | error error => exact nomatch same

/-- The first pass has the only version there is. -/
theorem first_pass : ∀ entry ∈ [pass accepted.build accepted], Copied entry ∧ Timely entry := by
  intro entry member
  rw [List.mem_singleton.mp member]
  exact ⟨List.mem_cons_self,pass_timely (by decide +kernel) (by decide +kernel)⟩

theorem building_served : building.build ∈ building.served :=
  (run_kept building_run (fun entry member => (first_pass entry member).1) fun entry member =>
    (first_pass entry member).2).1.copied

theorem both_passes : ∀ entry ∈ [pass built.build built,pass accepted.build accepted], Copied entry ∧ Timely entry := by
  intro entry member
  rcases List.mem_cons.mp member with rfl | member
  · exact ⟨building_served,pass_timely (by decide +kernel) (by decide +kernel)⟩
  · exact first_pass entry member

theorem finished_settled : Settled recorded ∧ recorded.record.phase = .succeeded ∧ recorded.created.length = 1 := by
  have copied := fun entry member => (both_passes entry member).1
  have timely := fun entry member => (both_passes entry member).2
  have served := (run_kept finished_run copied timely).1.copied
  have observed : observe sampleRecord (some finished.build) = .ok (some finishedRecord) := ok_of_toOption (by decide +kernel)
  have valid : validateCandidateUpdate sampleRecord finishedRecord = .ok () := ok_of_toOption (by decide +kernel)
  have same : finished.record = sampleRecord := by decide +kernel
  have known : sampleRecord ∈ finished.records := by
    rw [show finished.records = [sampleRecord] by decide +kernel]
    exact List.mem_singleton_self _
  have run := finished_run.disturb (.observe finished sampleRecord finishedRecord (some finished.build) known
    (fun build same => Option.some.inj same ▸ served) observed (same ▸ valid))
  exact ⟨outcome_final run copied timely,rfl,by decide +kernel⟩

/-- The cancel annotation is set before the pass that finds the digest. -/
def asked : World :=
  { built with
    build := { built.build with cancelRequested := true, generation := some 1 }
    served := { built.build with cancelRequested := true, generation := some 1 } :: built.served }

/-- The pass has a copy without the annotation; the next one has a copy with it, and without the end. -/
def overwritten : World := passed asked.build (passed building.build asked)

theorem overwritten_run : ∃ log, Run execute .unavailable Meanwhile code Fresh log overwritten ∧ ∀ entry ∈ log, Copied entry := by
  refine ⟨_,run_pass (run_pass (built_run.disturb (.cancel built (some 1))) building.build) asked.build,?_⟩
  intro entry member
  rcases List.mem_cons.mp member with rfl | member
  · exact carries_served (Sequenced.advanced_carries 30 (code building.build) asked) List.mem_cons_self
  · rcases List.mem_cons.mp member with rfl | member
    · exact List.mem_cons_of_mem _ building_served
    · rw [List.mem_singleton.mp member]
      exact List.mem_cons_self

theorem end_overwritten : ¬ ∀ [Functions] (log : List Entry) (world : World),
    Run execute .unavailable Meanwhile code Fresh log world → (∀ entry ∈ log, Copied entry) → Settled world := by
  intro settled
  obtain ⟨log,run,copied⟩ := overwritten_run
  have phases : (overwritten.served.map fun build => build.status.map Status.phase).Pairwise fun newer older =>
      (older.any fun phase => phase.terminal) = true → newer = older := by
    rw [List.pairwise_map]
    refine (settled log overwritten run copied).final.imp fun {newer older} final shown => ?_
    cases there : older.status with
    | none => simp [there] at shown
    | some status =>
      rw [there] at shown
      rw [final status there shown]
  exact absurd phases (by decide +kernel)
end

end Proofstorm.Building
