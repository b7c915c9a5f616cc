import Proofstorm.Measured
import Proofstorm.Prompt
import Proofstorm.Store.Candidates
import Proofstorm.Store.Journal

/-!
Records of candidate builds under racing writers. `update_candidate_build` checks
the update against a record that it read earlier, and its statement swaps the
record only where the stored one is still that. So every step takes a stored
record to one that the check allows (`Progressed`), and a call that finds another
record changes nothing and ends with what it reads then (`candidates_progress`).
-/
namespace Proofstorm.Store
open Proofstorm.Core
open Proofstorm.Interleaving (stateAfter Throughout Reachable Call)
open Relation (ReflTransGen)

/-- A record without what an update may change. -/
def identityOf (candidate : CandidateBuild) : CandidateBuild :=
  { candidate with
    diagnostics := none, phase := .pending, startedAtUnix := none, completedAtUnix := none
    image := none, errorCode := none, errorMessage := none }

/-- What one step may do to a stored record. -/
structure Allowed (before now : CandidateRow) : Prop where
  row : now = { before with build := now.build }
  identity : identityOf now.build = identityOf before.build
  phase : phaseFollows before.build.phase now.build.phase = true
  final : before.build.phase.terminal = true → now = before

/-- What any number of steps may do to it. -/
structure Progressed (before now : CandidateRow) : Prop where
  row : now = { before with build := now.build }
  identity : identityOf now.build = identityOf before.build
  phases : ReflTransGen (fun current next => phaseFollows current next = true) before.build.phase now.build.phase
  final : before.build.phase.terminal = true → now = before

theorem Allowed.refl (row : CandidateRow) : Allowed row row where
  row := rfl
  identity := rfl
  phase := by cases row.build.phase <;> rfl
  final _ := rfl

theorem Progressed.refl (row : CandidateRow) : Progressed row row := ⟨rfl,rfl,.refl,fun _ => rfl⟩

theorem Progressed.tail {a b c : CandidateRow} (first : Progressed a b) (step : Allowed b c) : Progressed a c where
  row := by rw [step.row,first.row]
  identity := step.identity.trans first.identity
  phases := first.phases.tail step.phase
  final finished := by
    have same := first.final finished
    exact (step.final (same ▸ finished)).trans same

/-- What a check against the stored record allows. -/
theorem validateCandidateUpdate_ok {current candidate : CandidateBuild}
    (valid : validateCandidateUpdate current candidate = .ok ()) :
    identityOf candidate = identityOf current ∧ phaseFollows current.phase candidate.phase = true ∧
      (current.phase.terminal = true → current = candidate) := by
  simp only [validateCandidateUpdate,bind_ok,ensure_ok] at valid
  obtain ⟨_,same,_,final,_,follows,_⟩ := valid
  refine ⟨?_,follows,final⟩
  rw [same]
  rfl

/-- The record under the id, where there is one, stays and changes in this way only. -/
def RecordStays (how : CandidateRow → CandidateRow → Prop) (workspace id : String) (db after : Db) : Prop :=
  ∀ row, db.candidateBuilds.find (workspace,id) = some row →
    ∃ now, after.candidateBuilds.find (workspace,id) = some now ∧ how row now

theorem RecordStays.of_eq {workspace id : String} {db after : Db}
    (same : after.candidateBuilds.find (workspace,id) = db.candidateBuilds.find (workspace,id)) :
    RecordStays Allowed workspace id db after :=
  fun row found => ⟨row,same.trans found,.refl row⟩

theorem RecordStays.tail {workspace id : String} {a b c : Db} (first : RecordStays Progressed workspace id a b)
    (step : RecordStays Allowed workspace id b c) : RecordStays Progressed workspace id a c := by
  intro row found
  obtain ⟨middle,there,early⟩ := first row found
  obtain ⟨now,here,late⟩ := step middle there
  exact ⟨now,here,early.tail late⟩

section
variable [CoreFunctions] {db after : Db} {workspace id : String}

omit [CoreFunctions] in
theorem updateCandidateStatement_retains {home : String} {current candidate : CandidateBuild} {count : Nat}
    (valid : validateCandidateUpdate current candidate = .ok ())
    (updated : updateCandidateStatement home current candidate db = .ok (count,after)) :
    RecordStays Allowed workspace id db after := by
  rw [updateCandidateStatement] at updated
  split at updated
  · cases updated
    intro row found
    refine ⟨_,Table.find_update_some (by exact fun _ => rfl) found,?_⟩
    split
    · rename_i chosen
      obtain ⟨_,_,rfl⟩ := chosen
      obtain ⟨same,follows,final⟩ := validateCandidateUpdate_ok valid
      refine ⟨rfl,same,follows,fun finished => ?_⟩
      rw [← final finished]
    · exact .refl row
  · cases updated
    exact .of_eq rfl

/-- A statement keeps the record under an id, unless it removes it. -/
theorem execute_retains {statement : Statement} {answer : statement.Answer} (checks : Checks statement)
    (spared : statement ≠ .removeCandidateBuild workspace id) (executed : execute statement db = .ok (answer,after)) :
    RecordStays Allowed workspace id db after := by
  cases other : statement.writesBuilds with
  | false => exact .of_eq (by rw [(execute_write executed).builds other])
  | true =>
    cases statement with
    | createCandidateBuild home principal candidate k =>
      intro row found
      simp only [execute,createCandidateBuildTx] at executed
      cases known : db.candidateBuilds.find (home,candidate.id) with
      | some existing =>
        simp only [known,bind_ok,pure_ok,Prod.mk.injEq] at executed
        obtain ⟨_,_,_,_,_,bound,_,rfl⟩ := executed
        rcases bindCandidateRequest_ok bound with rfl | ⟨_,rfl⟩ <;> exact ⟨row,found,.refl row⟩
      | none =>
        simp only [known,bind_ok,pure_ok,Prod.mk.injEq] at executed
        obtain ⟨_,_,_,_,_,bound,_,rfl⟩ := executed
        refine ⟨row,?_,.refl row⟩
        rcases bindCandidateRequest_ok bound with rfl | ⟨_,rfl⟩ <;> simp [Table.find_insert,found]
    | updateCandidate home current candidate => exact updateCandidateStatement_retains checks.2.1 executed
    | removeCandidateBuild home removed =>
      intro row found
      simp only [execute,removeCandidateBuildTx,bind_ok,pure_ok,Prod.mk.injEq] at executed
      obtain ⟨_,_,_,_,_,_,_,rfl⟩ := executed
      refine ⟨row,?_,.refl row⟩
      have keyed := (Table.find_eq_some.mp found).2
      have apart : ¬ (row.workspaceId = home ∧ row.id = removed) := by
        rintro ⟨rfl,rfl⟩
        have there : row.workspaceId = workspace := congrArg Prod.fst keyed
        have named : row.id = id := congrArg Prod.snd keyed
        exact spared (by rw [there,named])
      simpa [Table.find_delete,found] using not_and_or.mp apart
    | _ => cases other

/-! ### Updates -/

omit [CoreFunctions] in
theorem candidateRow_key (candidate : CandidateBuild) (row : CandidateRow) : key { row with build := candidate } = key row :=
  rfl

/-- The update swaps the stored record for that of its caller, which it returns. -/
def Swapped (workspace : String) (candidate : CandidateBuild) (event : Event) : Prop :=
  ∃ row, event.before.candidateBuilds.find (workspace,candidate.id) = some row ∧
    validateCandidateUpdate row.build candidate = .ok () ∧
    event.after = { event.before with
      candidateBuilds := event.before.candidateBuilds.update
        (fun other => other.workspaceId = workspace ∧ other.id = candidate.id ∧ other.build = row.build)
        (fun other => { other with build := candidate }) (candidateRow_key candidate) } ∧
    event.reply = some (.ok (.candidate candidate))

/-- The only statement of an update, after which it ends where the statement changed a row. -/
def Swaps (request : Request) (statement : Statement)
    (next : Except StoreError statement.Answer → Call Db Statement StoreError Statement.Answer (Except StoreError Reply)) :
    Prop :=
  ∀ workspace candidate, request = .updateCandidateBuild workspace candidate →
    match statement, next with
    | .updateCandidate home _ proposed, next => home = workspace ∧ proposed = candidate ∧
        ∀ count : Nat, count ≠ 0 → (next (.ok count)).result? = some (.ok (.candidate candidate))
    | _, _ => False

/-- `update_candidate_build`, step by step. -/
theorem code_updateCandidateBuild (workspace : String) (candidate : CandidateBuild) :
    code (.updateCandidateBuild workspace candidate) =
      .read fun db => Interleaving.proceed (candidateBuildUnchecked workspace candidate.id db) fun current =>
        Interleaving.proceed (validateCandidateUpdate current candidate) fun _ =>
          .write (.updateCandidate workspace current candidate) fun updated =>
            Interleaving.proceed updated fun (count : Nat) =>
              if count = 0 then
                .read fun now => .done ((candidateBuildUnchecked workspace candidate.id now).map Reply.candidate)
              else .done (.ok (.candidate candidate)) := by
  have last : ∀ count : Nat,
      ((if count = 0 then Interleaving.query (candidateBuildUnchecked workspace candidate.id) else pure candidate) >>=
        fun stored => (pure (Reply.candidate stored) : Program Reply)).run =
      if count = 0 then
        .read fun now => .done ((candidateBuildUnchecked workspace candidate.id now).map Reply.candidate)
      else .done (.ok (.candidate candidate)) := by
    intro count
    split
    · rw [Interleaving.query_bind]
      refine congrArg Call.read (funext fun now => ?_)
      cases candidateBuildUnchecked workspace candidate.id now <;> rfl
    · rfl
  simp only [code,program,updateCandidateBuild,bind_assoc,Interleaving.query_bind,Interleaving.settle_bind,
    Interleaving.submit_bind,last]

/-- Whatever it reads, an update comes to nothing but its own swap. -/
theorem code_swaps (request : Request) :
    (code request).Within (fun _ => True) (fun statement next => Checks statement ∧ Swaps request statement next)
      fun _ => True := by
  by_cases update : ∃ workspace candidate, request = .updateCandidateBuild workspace candidate
  · obtain ⟨workspace,candidate,rfl⟩ := update
    rw [code_updateCandidateBuild]
    refine fun db _ => .proceed (fun _ => trivial) fun current read => ?_
    refine .proceed (fun _ => trivial) fun _ valid => ?_
    refine ⟨⟨⟨trivial,valid,(candidateBuildUnchecked_ok.mp read).1⟩,?_⟩,fun updated => ?_⟩
    · rintro _ _ ⟨⟩
      refine ⟨rfl,rfl,fun count some_ => ?_⟩
      simp only [Interleaving.proceed_ok,if_neg some_,Call.result?]
    · refine .proceed (fun _ => trivial) fun count _ => ?_
      split
      · exact fun _ _ => trivial
      · trivial
  · exact (program_checks request).mono
      (fun statement next checks => ⟨checks,fun workspace candidate same => absurd ⟨workspace,candidate,same⟩ update⟩)
      fun _ _ => trivial

/-- The reply of an update is the record that is stored. -/
def Current (request : Request) (reply : Except StoreError Reply) (db : Db) : Prop :=
  ∀ workspace candidate, request = .updateCandidateBuild workspace candidate → ∀ value, reply = .ok value →
    ∃ stored, value = .candidate stored ∧ candidateBuildUnchecked workspace candidate.id db = .ok stored

omit [CoreFunctions] in
/-- A statement that changes a row swaps the record that it expects. -/
theorem updateCandidateStatement_swaps {home : String} {current candidate : CandidateBuild} {count : Nat}
    (updated : updateCandidateStatement home current candidate db = .ok (count,after)) :
    (count = 0 ∧ after = db) ∨ count ≠ 0 ∧ ∃ row,
      db.candidateBuilds.find (home,candidate.id) = some row ∧ row.build = current ∧
        after = { db with
          candidateBuilds := db.candidateBuilds.update
            (fun other => other.workspaceId = home ∧ other.id = candidate.id ∧ other.build = current)
            (fun other => { other with build := candidate }) fun _ => rfl } := by
  rw [updateCandidateStatement] at updated
  split at updated
  · rename_i there
    cases updated
    obtain ⟨row,member,rfl,named,same⟩ := there
    exact .inr ⟨by decide,row,Table.find_eq_some.mpr ⟨member,Prod.ext rfl named⟩,same,rfl⟩
  · cases updated
    exact .inl ⟨rfl,rfl⟩

theorem decodeCandidateBuild_update {current candidate : CandidateBuild}
    (decoded : decodeCandidateBuild current = .ok current) (valid : validateCandidateUpdate current candidate = .ok ()) :
    decodeCandidateBuild candidate = .ok candidate := by
  have same := (validateCandidateUpdate_ok valid).1
  have version : candidate.apiVersion = current.apiVersion := (congrArg CandidateBuild.apiVersion same :)
  have provenance : candidate.provenance = current.provenance := (congrArg CandidateBuild.provenance same :)
  simp only [decodeCandidateBuild,bind_ok,ensure_ok] at decoded
  obtain ⟨_,supported,_⟩ := decoded
  rw [decodeCandidateBuild,version,provenance,ensure_of supported]
  rfl

theorem code_current (request : Request) : (code request).Prompt execute (Current request) := by
  by_cases update : ∃ workspace candidate, request = .updateCandidateBuild workspace candidate
  · obtain ⟨workspace,candidate,rfl⟩ := update
    have failed : ∀ error db, Current (.updateCandidateBuild workspace candidate) (.error error) db :=
      fun _ _ _ _ _ _ same => nomatch same
    have ended : ∀ stored db, candidateBuildUnchecked workspace candidate.id db = .ok stored →
        Current (.updateCandidateBuild workspace candidate) (.ok (.candidate stored)) db := by
      rintro stored db read _ _ ⟨⟩ _ ⟨⟩
      exact ⟨stored,rfl,read⟩
    rw [code_updateCandidateBuild]
    refine fun db => Call.Settles.proceed (fun error => failed error db) fun current read => ?_
    refine .proceed (fun error => failed error db) fun _ valid => ?_
    refine .write (fun before count after executed => ?_) fun error now => .done (failed error now)
    refine .proceed (fun error => failed error after) ?_
    rintro _ ⟨⟩
    split
    · refine .read fun now => .done ?_
      cases again : candidateBuildUnchecked workspace candidate.id now with
      | ok stored => exact ended stored now again
      | error error => exact failed error now
    · rename_i changed
      refine .done (ended candidate after ?_)
      rcases updateCandidateStatement_swaps executed with ⟨none_,_⟩ | ⟨_,row,found,same,rfl⟩
      · exact absurd none_ changed
      · have decoded := decodeCandidateBuild_update (candidateBuildUnchecked_ok.mp read).1 valid
        have keyed := (Table.find_eq_some.mp found).2
        have chosen : row.workspaceId = workspace ∧ row.id = candidate.id ∧ row.build = current :=
          ⟨congrArg Prod.fst keyed,congrArg Prod.snd keyed,same⟩
        rw [candidateBuildUnchecked,Table.find_update_some (by exact fun _ => rfl) found,if_pos chosen]
        exact decoded
  · exact .of_all (fun _ _ workspace candidate same => absurd ⟨workspace,candidate,same⟩ update) _

/-- In every run a record under an id keeps its identity, moves along the phases
    that the check allows and, once it is terminal, stays as it is until it is
    removed. An update either swaps the stored record for the one that it was
    given, from a record that the check allows it to follow, and ends with it, or
    changes nothing; what it returns is what is stored then. -/
theorem candidates_progress {config : Config} (reached : Reached config) :
    (∀ newer between older, config.log = newer ++ (between ++ older) → ∀ workspace id,
      (∀ event ∈ between, event.did ≠ some (.removeCandidateBuild workspace id)) →
        RecordStays Progressed workspace id (stateAfter Db.empty older) (stateAfter Db.empty (between ++ older))) ∧
    (∀ event ∈ config.log, ∀ workspace id, event.did ≠ some (.removeCandidateBuild workspace id) →
      RecordStays Allowed workspace id event.before event.after) ∧
    ∀ event ∈ config.log, ∀ workspace candidate, event.request = .updateCandidateBuild workspace candidate →
      (event.after = event.before ∨ Swapped workspace candidate event) ∧
        ∀ reply, event.reply = some (.ok reply) → ∃ stored, reply = .candidate stored ∧
          candidateBuildUnchecked workspace candidate.id event.after = .ok stored := by
  have noted : Throughout (fun _ event => ∀ statement, event.did = some statement → True) config.log :=
    Interleaving.throughout_iff.mpr fun _ _ _ _ _ _ => trivial
  have facts := (Reachable.invariant (fun _ => True) (fun _ _ => True) _ (fun _ _ => True) reached noted trivial code_swaps
    fun _ _ _ _ _ _ _ _ _ _ => trivial).2.2.and (reached.committed.and (reached.prompt code_current).2)
  have each := facts.all
  have steps : ∀ event ∈ config.log, ∀ workspace id, event.did ≠ some (.removeCandidateBuild workspace id) →
      RecordStays Allowed workspace id event.before event.after := by
    intro event member workspace id spared
    obtain ⟨⟨_,_,answered,_⟩,committed,_⟩ := each event member
    cases did : event.did with
    | none =>
      rw [Interleaving.Committed,did] at committed
      exact .of_eq (by rw [committed])
    | some statement =>
      obtain ⟨_,answer,⟨checks,_⟩,executed,_⟩ := answered statement did
      exact execute_retains checks (fun same => spared (did.trans (congrArg some same))) executed
  refine ⟨fun newer between older log workspace id spared => ?_,steps,?_⟩
  · have linked := reached.linked
    rw [log] at linked
    have path := linked.suffix.path (R := RecordStays Allowed workspace id) fun event member =>
      steps event (by simp [log,member]) workspace id (spared event member)
    generalize stateAfter Db.empty (between ++ older) = last at path
    induction path with
    | refl => exact fun row found => ⟨row,found,.refl row⟩
    | tail _ step earlier => exact earlier.tail step
  · intro event member workspace candidate asked
    obtain ⟨⟨_,_,answered,_⟩,committed,current⟩ := each event member
    refine ⟨?_,fun reply ended => current _ ended workspace candidate asked reply rfl⟩
    cases did : event.did with
    | none =>
      rw [Interleaving.Committed,did] at committed
      exact .inl committed
    | some statement =>
      obtain ⟨next,answer,⟨checks,swaps⟩,executed,ended⟩ := answered statement did
      have swap := swaps workspace candidate asked
      cases statement with
      | updateCandidate home expected proposed =>
        obtain ⟨rfl,rfl,ends⟩ := swap
        rcases updateCandidateStatement_swaps executed with ⟨_,same⟩ | ⟨some_,row,found,rfl,same⟩
        · exact .inl same
        · exact .inr ⟨row,found,checks.2.1,same,ended.trans (ends _ some_)⟩
      | _ => exact swap.elim
end

section
attribute [local instance] CoreFunctions.withCandidates

/-- The same build, cancelled. -/
def sampleCancelled : CandidateBuild := { sampleCandidate with phase := .cancelled, completedAtUnix := some 5 }

/-- Two updates read one record, and the first to write it cancels the build. -/
def racing : Config :=
  ran (inTurn [.putWorkspace ⟨"w","w"⟩,.putPrincipal "p",.grant "w" "p" .candidateBuild,
      .createCandidateBuild "w" "p" sampleCandidate "k1"] ++
    [.start (.updateCandidateBuild "w" sampleBuilt),.start (.updateCandidateBuild "w" sampleCancelled),
      .perform 0,.perform 1,.finish 0,.finish 0])

set_option maxRecDepth 100000 in
/-- The other one ends with the cancelled record, which is stored. -/
theorem candidates_progress_racing : ∃ event ∈ racing.log, event.request = .updateCandidateBuild "w" sampleBuilt ∧
    event.reply = some (.ok (.candidate sampleCancelled)) ∧
    candidateBuildUnchecked "w" "fix" event.after = .ok sampleCancelled ∧
    ∃ row ∈ racing.state.candidateBuilds, row.build = sampleCancelled := by
  have seen : (∃ event ∈ racing.log, event.request = .updateCandidateBuild "w" sampleBuilt ∧
      event.reply = some (.ok (.candidate sampleCancelled))) ∧
      ∃ row ∈ racing.state.candidateBuilds.rows, row.build = sampleCancelled := by
    decide +kernel
  obtain ⟨⟨event,member,asked,replied⟩,stored⟩ := seen
  obtain ⟨_,same,read⟩ := ((candidates_progress (ran_reached _)).2.2 event member "w" sampleBuilt asked).2 _ replied
  cases same
  exact ⟨event,member,asked,replied,read,stored⟩
end

end Proofstorm.Store
