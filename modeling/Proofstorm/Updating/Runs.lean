import Proofstorm.Guarded
import Proofstorm.Updating.History
import Proofstorm.Updating.Passes

/-!
The runs of the calls about one instance. A pass takes the generation and the
revision it writes from one moment of the journal, so the resource is always that
of the generation it names (`Sound.cell`), and what is acknowledged was reported
of that very resource (`Sound.applied`). What a pass lists for deletion it reads
later: it belongs to that generation where nothing that deletes data was accepted
meanwhile (`Undivided`).
-/
namespace Proofstorm.Updating
open Proofstorm.Core
open Proofstorm.Actions (CellPhase Failure unavailable)
open Proofstorm.Interleaving

inductive Request
  | acceptUpdate (workspace principal : String) (plan : CellUpdatePlan) (key : String) (now : Int)
  | reconcile (principal : String) (fresh : Bool)
  | wait (principal key : String) (expected : Option Nat) (fresh : Bool)
  | controller (applied : Bool) (course : Course)

/-- The resource before the run, made from the first revision and not observed yet. -/
structure Deployment (journal : Journal) where
  cell : Cell
  spec : cell.spec = specOf journal.row.workspaceId journal.row.id journal.row.instanceKey journal.revision
  first : cell.desired = 1
  undeleted : cell.deleteData = none
  unobserved : cell.status = none

def Deployment.world {journal : Journal} (deployment : Deployment journal) : World := ⟨journal.db,some deployment.cell,[]⟩

section
variable [CoreFunctions] (journal : Journal)

def body : Request → Program Unit
  | .acceptUpdate workspace principal plan key now => do
    let _ ← store (Store.acceptUpdate workspace principal plan key now)
    pure ()
  | .reconcile principal fresh => reconcileOnce journal.row.workspaceId principal journal.row.id fresh
  | .wait principal key expected fresh => waitOnce journal.row.workspaceId principal journal.row.id key expected fresh
  | .controller applied course => reconcileCell applied course

def code (request : Request) : Call World Statement Failure Statement.Answer (Except Failure Unit) :=
  (body journal request).run

abbrev Config := Interleaving.Config Request World Statement Failure Statement.Answer (Except Failure Unit)

/-! ### What holds of every state -/

/-- The resource has the revision that was accepted at the generation it names. -/
def Coherent (db : Store.Db) (cell : Cell) : Prop :=
  cell.desired ≤ journal.generation db ∧ ∃ revision, journal.Known revision ∧
    journal.AcceptedAt db cell.desired revision.digest ∧
    cell.spec = specOf journal.row.workspaceId journal.row.id journal.row.instanceKey revision

/-- What is listed for deletion belongs to updates up to that generation, and not to the specification. -/
def Deletable (db : Store.Db) (cell : Cell) : Prop :=
  ∀ listed, cell.deleteData = some listed → ∀ c ∈ listed, c ∉ cell.spec.cell.ids ∧
    ∃ update, journal.Has db update ∧ update.generation ≤ cell.desired ∧ c ∈ update.plan.changes.deletedData

/-- A status that says ready says of which generation and revision. -/
def Matches (copy : Cell) (status : CellStatus) : Prop :=
  status.phase = .ready → status.observedDesiredGeneration = copy.desired ∧
    status.observedRevisionDigest = copy.spec.revisionDigest

/-- The controller has reported ready of a resource of this generation, with the revision accepted then. -/
def Reported (world : World) (generation : Nat) : Prop :=
  ∃ report ∈ world.reports, report.2.phase = .ready ∧ report.1.desired = generation ∧
    ∃ revision, journal.Known revision ∧ journal.AcceptedAt world.journal generation revision.digest ∧
      report.1.spec = specOf journal.row.workspaceId journal.row.id journal.row.instanceKey revision

/-- Where the resource says ready, that was reported. -/
def Seen (world : World) (cell : Cell) : Prop :=
  ∀ status, cell.status = some status → status.phase = .ready → ∃ copy, (copy,status) ∈ world.reports

/-- The invariant; `strict` says that the run meets the condition on deletions. -/
structure Sound (strict : Prop) (world : World) : Prop where
  tracked : ∃ row, journal.Tracked world.journal row
  cell : ∀ cell, world.cell = some cell → Coherent journal world.journal cell
  seen : ∀ cell, world.cell = some cell → Seen world cell
  reports : ∀ report ∈ world.reports, Coherent journal world.journal report.1 ∧ Matches report.1 report.2
  applied : journal.applied world.journal = 1 ∨ Reported journal world (journal.applied world.journal)
  deletions : strict → ∀ cell, world.cell = some cell → Deletable journal world.journal cell

/-- What others may make of a state. -/
structure Later (world after : World) : Prop where
  grows : journal.Grows world.journal after.journal
  reports : world.reports ⊆ after.reports
  cell : ∀ cell, world.cell = some cell → ∃ next, after.cell = some next ∧ cell.desired ≤ next.desired ∧
    cell.resourceVersion ≤ next.resourceVersion ∧ (next.resourceVersion = cell.resourceVersion → next = cell)

/-- The generation that a statement of the store acknowledges for an instance. -/
def marks : Store.Statement → Option (String × String × Nat)
  | .markUpdateApplied workspace id generation _ => some (workspace,id,generation)
  | _ => none

/-- The precondition of a statement. -/
def Needs (strict : Prop) : Statement → World → Prop
  | .journal statement, world => journal.Permitted statement ∧
      (marks statement = some (journal.row.workspaceId,journal.row.id,journal.generation world.journal) →
        Reported journal world (journal.generation world.journal))
  | .replace body, world => Coherent journal world.journal body ∧
      (∀ cell, world.cell = some cell → cell.resourceVersion = body.resourceVersion → cell.desired ≤ body.desired) ∧
      (strict → Deletable journal world.journal body)
  | .patchStatus copy status, world => Coherent journal world.journal copy ∧ Matches copy status

/-- Where a pass is about to read what to delete, no update of a later generation deletes data. -/
def Undivided (call : Call World Statement Failure Statement.Answer (Except Failure Unit)) (world : World) : Prop :=
  ∀ principal cell generation revision fresh resource,
    call = (writeCell journal.row.workspaceId principal journal.row.id cell generation revision fresh resource).run →
    ∀ update, journal.Has world.journal update → generation < update.generation → update.plan.changes.deletedData = []
end

section
variable {journal : Journal} {strict : Prop} {db after : Store.Db} {world now last : World} {cell : Cell}

theorem Coherent.later (coherent : Coherent journal db cell) (grows : journal.Grows db after) :
    Coherent journal after cell := by
  obtain ⟨reached,revision,known,accepted,spec⟩ := coherent
  exact ⟨reached.trans grows.generation,revision,known,accepted.later grows,spec⟩

theorem Deletable.later (deletable : Deletable journal db cell) (grows : journal.Grows db after) :
    Deletable journal after cell := by
  intro listed annotated c member
  obtain ⟨absent,update,has,rest⟩ := deletable listed annotated c member
  exact ⟨absent,update,grows.kept update has,rest⟩

theorem Later.refl (journal : Journal) (world : World) : Later journal world world :=
  ⟨.refl _ _,List.Subset.refl _,fun cell there => ⟨cell,there,le_rfl,le_rfl,fun _ => rfl⟩⟩

theorem Later.trans (first : Later journal world now) (second : Later journal now last) : Later journal world last := by
  refine ⟨first.grows.trans second.grows,List.Subset.trans first.reports second.reports,fun cell there => ?_⟩
  obtain ⟨next,after,desired,version,same⟩ := first.cell cell there
  obtain ⟨final,there,wanted,newer,kept⟩ := second.cell next after
  refine ⟨final,there,desired.trans wanted,version.trans newer,fun equal => ?_⟩
  have stays : next.resourceVersion = cell.resourceVersion := le_antisymm (newer.trans equal.le) version
  exact (kept (equal.trans stays.symm)).trans (same stays)

theorem Reported.later {generation : Nat} (reported : Reported journal world generation) (step : Later journal world now) :
    Reported journal now generation := by
  obtain ⟨report,member,ready,desired,revision,known,accepted,spec⟩ := reported
  exact ⟨report,step.reports member,ready,desired,revision,known,accepted.later step.grows,spec⟩

theorem Seen.later (seen : Seen world cell) (step : Later journal world now) : Seen now cell :=
  fun status there ready => (seen status there ready).imp fun _ member => step.reports member

variable [CoreFunctions]

/-- The effect of one statement, executed where its precondition holds. -/
theorem Sound.step {statement : Statement} {answer : statement.Answer} (sound : Sound journal strict world)
    (needs : Needs journal strict statement world) (executed : execute statement world = .ok (answer,now)) :
    Sound journal strict now ∧ Later journal world now := by
  cases statement with
  | journal statement =>
    obtain ⟨permitted,reported⟩ := needs
    simp only [execute] at executed
    split at executed
    · rename_i reply db committed
      cases executed
      obtain ⟨row,tracked⟩ := sound.tracked
      obtain ⟨grows,next,applied⟩ := tracked.step permitted committed
      have step : Later journal world { world with journal := db } :=
        ⟨grows,List.Subset.refl _,fun cell there => ⟨cell,there,le_rfl,le_rfl,fun _ => rfl⟩⟩
      refine ⟨?_,step⟩
      exact
        { tracked := next
          cell := fun cell there => (sound.cell cell there).later grows
          seen := fun cell there => (sound.seen cell there).later step
          reports := fun report member => ⟨(sound.reports report member).1.later grows,(sound.reports report member).2⟩
          applied := by
            rcases applied with same | ⟨converged,rfl,newest⟩
            · rw [show journal.applied ({ world with journal := db } : World).journal = journal.applied world.journal from same]
              exact sound.applied.imp_right fun holds => holds.later step
            · rw [show journal.applied ({ world with journal := db } : World).journal = journal.generation world.journal from newest]
              exact .inr ((reported rfl).later step)
          deletions := fun met cell there => (sound.deletions met cell there).later grows }
    · cases executed
  | replace body =>
    obtain ⟨coherent,forward,deletable⟩ := needs
    simp only [execute] at executed
    split at executed
    · cases executed
    · rename_i cell there
      split at executed
      · rename_i current
        cases executed
        have step : Later journal world { world with cell := some (cell.replaced body) } := by
          refine ⟨.refl _ _,List.Subset.refl _,fun old found => ?_⟩
          obtain rfl : cell = old := Option.some.inj (there.symm.trans found)
          exact ⟨_,rfl,forward cell there current,Nat.le_succ _,fun same => absurd same (Nat.succ_ne_self _)⟩
        refine ⟨?_,step⟩
        exact
          { tracked := sound.tracked
            cell := by rintro _ ⟨⟩; exact coherent
            seen := by rintro _ ⟨⟩; exact sound.seen cell there
            reports := sound.reports
            applied := sound.applied.imp_right fun holds => holds.later step
            deletions := by rintro met _ ⟨⟩; exact deletable met }
      · cases executed
  | patchStatus copy status =>
    simp only [execute] at executed
    split at executed
    · cases executed
    · rename_i cell there
      cases executed
      have step : Later journal world
          { world with cell := some (cell.reported status), reports := (copy,status) :: world.reports } := by
        refine ⟨.refl _ _,List.subset_cons_self _ _,fun old found => ?_⟩
        obtain rfl : cell = old := Option.some.inj (there.symm.trans found)
        exact ⟨_,rfl,le_rfl,Nat.le_succ _,fun same => absurd same (Nat.succ_ne_self _)⟩
      refine ⟨?_,step⟩
      exact
        { tracked := sound.tracked
          cell := by rintro _ ⟨⟩; exact sound.cell cell there
          seen := by rintro _ ⟨⟩ _ ⟨⟩ _; exact ⟨copy,List.mem_cons_self⟩
          reports := fun report member => by
            rcases List.mem_cons.mp member with rfl | old
            · exact needs
            · exact sound.reports report old
          applied := sound.applied.imp_right fun holds => holds.later step
          deletions := by rintro met _ ⟨⟩; exact sound.deletions met cell there }
end

section
attribute [local instance] CoreFunctions.sample

def sampleRow : Store.InstanceRow :=
  Store.instanceRow (Store.newInstance "w" "cell-1" (Store.sampleRevision ["alice","bob"])
    (Store.sampleRevision ["alice","bob"]).digest "n")

def sampleStored (ids : List String) : Store.RevisionRow :=
  ⟨(Store.sampleRevision ids).digest,"w","draft",1,Store.sampleRevision ids⟩

def sampleDb : Store.Db :=
  { Store.Db.empty with
    grants := ⟨[⟨"w","p",.cellEdit⟩,⟨"w","p",.cellMaterialize⟩,⟨"w","p",.cellStatus⟩],by decide⟩
    revisions := ⟨[["alice","bob"],["alice","bob","carol"],["alice","carol"]].map sampleStored,by decide +kernel⟩
    instances := ⟨[sampleRow],by simp⟩ }

def sampleJournal : Journal where
  db := sampleDb
  row := sampleRow
  revision := Store.sampleRevision ["alice","bob"]
  live := List.mem_singleton_self _
  stored := by decide +kernel
  published := ⟨sampleStored ["alice","bob"],List.mem_cons_self,rfl⟩
  current := rfl
  quiet := ⟨fun update member => absurd member (Table.not_mem_empty update),rfl,rfl⟩
  unretained := fun _ ⟨row,member,_⟩ => Table.not_mem_empty row member

def sampleDeployment : Deployment sampleJournal where
  cell := ⟨1,1,false,specOf "w" "cell-1" sampleRow.instanceKey (Store.sampleRevision ["alice","bob"]),none,none,none⟩
  spec := rfl
  first := rfl
  undeleted := rfl
  unobserved := rfl

def sampleAccept (k : String) (target : CellUpdateTarget) (old new : List String) : List Request :=
  (Store.samplePlan "n" target old new).toList.map fun plan => .acceptUpdate "w" "p" plan k 0
end

end Proofstorm.Updating
