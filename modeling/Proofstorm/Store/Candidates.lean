import Proofstorm.Store.UpdateChain

/-!
The candidate builds that live cells run. `remove_candidate_build` looks for the
cells that use a candidate, but the two statements that put a revision to use,
the insertion of an instance and the acceptance of an update, do not look at the
candidates: `catalogued_iff` says that this is all a run can go wrong by.
-/
namespace Proofstorm.Store
open Proofstorm.Core
open Proofstorm.Interleaving (Throughout)

section

/-- The candidates that the lock of a revision names. -/
def candidatesOf (revision : PublishedRevision) : List String :=
  revision.lock.entries.filterMap fun entry => entry.source.map CandidateSource.candidateId

/-- Every candidate of the revision under the digest is in `candidate_builds`. -/
def Backed (workspace digest : String) (db : Db) : Prop :=
  ∀ row ∈ db.revisions, row.digest = digest → ∀ id ∈ candidatesOf row.revision, db.candidateBuilds.has (workspace,id)

/-- Every candidate of the current revision of a live instance is in `candidate_builds`. -/
def Catalogued (db : Db) : Prop :=
  ∀ cell ∈ db.instances, Backed cell.workspaceId cell.revisionDigest db

/-- The statement makes the revision current: a new instance is inserted with it,
    or an update to it is neither a retry nor without effect. -/
def PutsInUse (statement : Statement) (db : Db) (workspace digest : String) : Prop :=
  match statement with
  | .insertInstance row => row.workspaceId = workspace ∧ row.revisionDigest = digest ∧
      ¬ db.instances.has (row.workspaceId,row.id) ∧
      ∀ other ∈ db.instances, other.instanceKey ≠ row.instanceKey ∧ other.resourceName ≠ row.resourceName
  | .acceptUpdate home principal k plan revision _ => home = workspace ∧ revision.digest = digest ∧
      db.idempotency.find (home,principal,k) = none ∧ plan.isNoop = false
  | _ => False

theorem mem_candidatesOf {revision : PublishedRevision} {id : String} : id ∈ candidatesOf revision ↔
    ∃ entry ∈ revision.lock.entries, entry.source.map CandidateSource.candidateId = some id := by
  simp [candidatesOf]

theorem mem_candidateUsers {workspace id : String} {db : Db} {cell : InstanceRow} :
    cell ∈ candidateUsers workspace id db ↔ cell ∈ db.instances ∧ cell.workspaceId = workspace ∧
      ∃ row ∈ db.revisions, row.digest = cell.revisionDigest ∧ id ∈ candidatesOf row.revision := by
  simp [candidateUsers,Table.mem_rows,mem_candidatesOf]

/-- Fewer revisions and more candidates leave a revision backed. -/
theorem Backed.less {workspace digest : String} {db after : Db} (backed : Backed workspace digest db)
    (revisions : ∀ row ∈ after.revisions, row ∈ db.revisions)
    (builds : ∀ row ∈ db.candidateBuilds, after.candidateBuilds.has (key row)) : Backed workspace digest after := by
  intro row member same id named
  obtain ⟨build,present,keyed⟩ := backed row (revisions row member) same id named
  rw [← keyed]
  exact builds build present

variable [CoreFunctions] {known : PublishedRevision → Prop} {statement : Statement} {db after : Db}

/-- A write that puts no revision without its candidates to use leaves every live cell with its candidates. -/
theorem Catalogued.write (catalogued : Catalogued db) (anchored : Anchored known db) (write : Write statement db after)
    (backed : ∀ workspace digest, PutsInUse statement db workspace digest → Backed workspace digest db) :
    Catalogued after := by
  have kept : ∀ row ∈ db.candidateBuilds, db.candidateBuilds.has (key row) := fun row member => ⟨row,member,rfl⟩
  cases write with
  | elsewhere =>
    intro cell live
    apply (catalogued cell live).less
    · exact fun _ member => member
    · assumption
  | candidateReceipt =>
    intro cell live
    apply (catalogued cell live).less
    · exact fun _ member => member
    · assumption
  | publish row db f keeps contents =>
    intro cell live other member same id named
    rcases (Table.mem_upsert keeps).mp member with ⟨old,_⟩ | ⟨old,present,_,rfl⟩ | ⟨rfl,free⟩
    · exact catalogued cell live other old same id named
    · rw [(contents old).1] at named
      exact catalogued cell live old present ((keeps old).symm.trans same) id named
    · -- The digest of a live cell has its revision, so publication did not add one.
      obtain ⟨stored,present,keyed⟩ := (anchored cell live).1
      exact absurd (keyed.trans same.symm) (Table.find_eq_none.mp free stored present)
  | materialize row db free unique published =>
    intro cell live
    rcases Table.mem_insert.mp live with old | ⟨rfl,_⟩
    · exact (catalogued cell old).less (fun _ member => member) kept
    · exact (backed _ _ ⟨rfl,rfl,Table.not_has.mpr free,unique⟩).less (fun _ member => member) kept
  | removeCandidate workspace id db unused =>
    intro cell live row member same named present
    obtain ⟨build,recorded,keyed⟩ := catalogued cell live row member same named present
    refine ⟨build,Table.mem_delete.mpr ⟨recorded,?_⟩,keyed⟩
    -- The cell would have been among the users of the removed candidate.
    rintro ⟨home,removed⟩
    have there : cell.workspaceId = workspace := (congrArg Prod.fst keyed).symm.trans home
    have alike : named = id := (congrArg Prod.snd keyed).symm.trans removed
    have user : cell ∈ candidateUsers workspace id db :=
      mem_candidateUsers.mpr ⟨live,there,row,member,same,alike ▸ present⟩
    rw [unused] at user
    exact absurd user List.not_mem_nil
  | newAction _ _ _ _ _ admitted =>
    rw [admitted.result]
    exact catalogued
  | acknowledge _ _ _ _ _ _ _ _ _ acknowledged =>
    rw [(recordUpdateReceipt_ok.mp acknowledged.result).2]
    exact catalogued
  | accept workspace principal k plan revision now cell db after accepted =>
    have revisions : after.revisions = db.revisions := by
      rw [accepted.after_eq]
      rfl
    have builds : after.candidateBuilds = db.candidateBuilds := by
      rw [accepted.after_eq]
      rfl
    intro other live
    rcases accepted.mem_instances.mp live with ⟨old,_⟩ | rfl
    · exact (catalogued other old).less (fun _ member => revisions ▸ member) (builds ▸ kept)
    · have needed := backed workspace revision.digest ⟨rfl,rfl,accepted.unrecorded,accepted.work⟩
      rw [← accepted.home] at needed
      exact needed.less (fun _ member => revisions ▸ member) (builds ▸ kept)
  | purgeHandle =>
    intro cell live
    exact (catalogued cell live).less (fun _ member => (Table.mem_delete.mp member).1) kept
  | purge =>
    intro cell live
    exact (catalogued cell (mem_purged_instances.mp live).1).less (fun _ member => (Table.mem_delete.mp member).1) kept
  | _ => exact catalogued

/-- A revision that a statement put to use is backed where the cells are catalogued after it. -/
theorem Catalogued.backed {answer : statement.Answer} {workspace digest : String} (catalogued : Catalogued after)
    (executed : execute statement db = .ok (answer,after)) (puts : PutsInUse statement db workspace digest) :
    Backed workspace digest db := by
  cases statement with
  | insertInstance row =>
    obtain ⟨rfl,rfl,absent,unique⟩ := puts
    have free : ¬ (db.instances.has (row.workspaceId,row.id) ∨ ∃ other ∈ db.instances.rows,
        other.instanceKey = row.instanceKey ∨ other.resourceName = row.resourceName) := by
      rintro (held | ⟨other,member,alike | alike⟩)
      · exact absent held
      · exact (unique other member).1 alike
      · exact (unique other member).2 alike
    rw [execute,insertInstance,if_neg free] at executed
    simp only [bind_ok,pure_ok,Prod.mk.injEq] at executed
    obtain ⟨_,_,_,rfl⟩ := executed
    exact catalogued row (Table.mem_insert.mpr (.inr ⟨rfl,Table.not_has.mp absent⟩))
  | acceptUpdate home principal k plan revision now =>
    obtain ⟨rfl,rfl,unrecorded,work⟩ := puts
    obtain ⟨cell,_,_,_,_,⟨_,receipt,recorded,_⟩ | acknowledged | accepted⟩ := acceptUpdateTx_ok executed
    · rw [unrecorded] at recorded
      exact nomatch recorded
    · rw [acknowledged.noop] at work
      exact nomatch work
    · have current := catalogued _ (accepted.mem_instances.mpr (.inr rfl))
      rw [accepted.after_eq] at current
      rw [← accepted.home]
      exact current
  | _ => exact puts.elim

/-! ### Runs -/

/-- Every revision that an event puts to use finds its candidates in `candidate_builds`. -/
def BackedUse (event : Event) : Prop :=
  ∀ statement, event.did = some statement → ∀ workspace digest, PutsInUse statement event.before workspace digest →
    Backed workspace digest event.before

/-- The live cells of every state of a run have their candidates exactly where
    every revision had them at the moment it was put to use. -/
theorem catalogued_iff {config : Config} (reached : Reached config) :
    (Catalogued config.state ∧ Throughout (fun _ event => Catalogued event.before ∧ Catalogued event.after) config.log) ↔
      Throughout (fun _ event => BackedUse event) config.log := by
  constructor
  · rintro ⟨_,throughout⟩
    refine (throughout.and reached.committed).mono ?_
    rintro _ event ⟨⟨_,after⟩,committed⟩ statement did workspace digest puts
    rw [Interleaving.Committed,did] at committed
    obtain ⟨answer,executed⟩ := committed
    exact after.backed executed puts
  · intro backed
    have given := backed.and (anchored_run reached).2
    refine reached.induction_of _ given (fun _ db => Catalogued db) ?_ ?_ ?_
    · exact fun cell live => absurd live (Table.not_mem_empty cell)
    · exact fun _ _ _ same before => same ▸ before
    · intro _ event statement known did _ _ write before
      exact before.write known.2.1 write (known.1 statement did)
end

section

/-- What the sample catalog holds of a candidate, under its version. -/
def sampleEntry (candidate : CandidateBuild) : String × Json :=
  (candidate.version.getD "",.object [("id",.str candidate.id),("url",.str candidate.pullRequestUrl),
    ("repository",.str (candidate.repository.getD "")),("commit",.str (candidate.commitSha.getD "")),
    ("image",.str (candidate.image.getD ""))])

def sampleText (entry : Json) (field : String) : String := ((entry.get field).bind Json.asStr).getD ""

/-- Functions in the place of those of `proofstorm-core` under which a component
    runs release 31.1 or a candidate of the catalog, which its lock then names. -/
@[reducible] def CoreFunctions.withCandidates : CoreFunctions :=
  { CoreFunctions.sample with
    effectiveCatalog := fun candidates => .ok ⟨.object (candidates.map sampleEntry)⟩
    resolveLock := fun cell catalog => do
      let entries ← cell.components.mapM fun component =>
        let version := component.version.getD "31.1"
        match catalog.document.get version with
        | some entry =>
          let source : CandidateSource := ⟨sampleText entry "id",sampleText entry "url",sampleText entry "repository",
            sampleText entry "commit"⟩
          .ok ⟨component.id,component.implementation,version,sampleDigest component.words,sampleText entry "image",
            some source,.null⟩
        | none =>
          if version = "31.1" then .ok ⟨component.id,component.implementation,version,sampleDigest component.words,
            component.implementation,none,.null⟩
          else .error "catalog_version_unsupported"
      pure ⟨"proofstorm/lock/v2alpha1",sampleDigest ("lock" :: cell.words),entries⟩
    validateNewCellVersions := fun cell catalog =>
      if ∀ component ∈ cell.components, component.version = some "31.1" ∨
        (catalog.document.get (component.version.getD "")).isSome then .ok ()
      else .error "catalog_version_retired"
    baseRelease := fun _ _ => some false }

attribute [local instance] CoreFunctions.withCandidates

/-- A build of a pull request, as it is admitted. -/
def sampleCandidate : CandidateBuild :=
  { diagnostics := none
    apiVersion := candidateApiVersion
    id := "fix"
    workspaceId := "w"
    principalId := "p"
    implementation := "bitcoin-core"
    baseVersion := "31.1"
    pullRequestUrl := "https://github.com/bitcoin/bitcoin/pull/1"
    resourceName := "candidate-fix"
    requestDigest := "sha256:request"
    provenance := none
    buildFeatures := []
    phase := .pending
    acceptedAtUnix := 0
    startedAtUnix := none
    completedAtUnix := none
    repository := some "bitcoin/bitcoin"
    commitSha := some "0123456789012345678901234567890123456789"
    version := some "candidate-fix"
    image := none
    errorCode := none
    errorMessage := none }

/-- The same build, succeeded. -/
def sampleBuilt : CandidateBuild :=
  { sampleCandidate with
    phase := .succeeded
    image := some "bitcoin@sha256:0123456789012345678901234567890123456789012345678901234567890123" }

/-- The sample cell of `alice`, and `bob` beside her under the candidate. -/
def patchedCell : CellSpec :=
  { sampleCell ["alice"] with
    components := (sampleCell ["alice"]).components ++
      [⟨"bob",.bitcoin,"bitcoin-core",some "candidate-fix","bitcoin-core/31/v1",.cell,[]⟩] }

/-- The revision that publishing a cell gives while the catalog has the candidate. -/
def patchedRevision (cell : CellSpec) : PublishedRevision :=
  let lock := match CoreFunctions.resolveLock cell ⟨.object [sampleEntry sampleBuilt]⟩ with
    | .ok lock => lock
    | .error _ => ⟨"","",[]⟩
  ⟨"w",publicationDigest "w" cell lock,cell,lock⟩

/-- A live cell of `alice`, a succeeded candidate and a plan to add `bob` under it. -/
def patching : List Request :=
  [.putWorkspace ⟨"w","w"⟩,.putPrincipal "p"] ++
    ([.cellCreate,.cellPublish,.cellMaterialize,.cellEdit,.candidateBuild,.candidateCancel].map (.grant "w" "p")) ++
    [.createDraft "w" "p" "one" (sampleCell ["alice"]) "k6",.publish "w" "p" "one" 1 "k7",
      .createCandidateBuild "w" "p" sampleCandidate "k1",.updateCandidateBuild "w" sampleBuilt,
      .createDraft "w" "p" "two" patchedCell "k2",.publish "w" "p" "two" 1 "k3",
      .materialize "w" "p" "cell-1" (patchedRevision (sampleCell ["alice"])).digest "k4" "n",
      .planUpdate "w" "p" ⟨"cell-1",1,false,[]⟩ (patchedRevision patchedCell)]

/-- The acceptance of that plan. -/
def patch : List Request :=
  let old := patchedRevision (sampleCell ["alice"])
  match CellUpdatePlan.new ⟨"cell-1",1,false,[]⟩ old (patchedRevision patchedCell) with
  | .ok plan => [.acceptUpdate "w" "p" (plan.bindInstance (newInstance "w" "cell-1" old "" "n").instanceKey) "k5" 0]
  | .error _ => []

/-- The candidate is removed between the plan and its acceptance. -/
def removedUnderPlan : Config := ran (inTurn (patching ++ [.removeCandidateBuild "w" "p" "fix"] ++ patch))

/-- The plan is accepted first, so the removal is refused. -/
def removalRefused : Config := ran (inTurn (patching ++ patch ++ [.removeCandidateBuild "w" "p" "fix"]))

instance (db : Db) : Decidable (Catalogued db) :=
  inferInstanceAs (Decidable (∀ cell ∈ db.instances.rows, ∀ row ∈ db.revisions.rows, row.digest = cell.revisionDigest →
    ∀ id ∈ candidatesOf row.revision, db.candidateBuilds.has (cell.workspaceId,id)))

set_option maxRecDepth 100000 in
theorem catalogued_iff_removalRefused : (candidateUsers "w" "fix" removalRefused.state).map InstanceRow.id = ["cell-1"] ∧
    Throughout (fun _ event => BackedUse event) removalRefused.log := by
  have seen : (candidateUsers "w" "fix" removalRefused.state).map InstanceRow.id = ["cell-1"] ∧
      Catalogued removalRefused.state ∧
      ∀ event ∈ removalRefused.log, Catalogued event.before ∧ Catalogued event.after := by decide +kernel
  have reached : Reached removalRefused := ran_reached _
  -- What follows holds of any run, so that the tactics need not run this one.
  generalize removalRefused = config at seen reached ⊢
  obtain ⟨used,last,each⟩ := seen
  have always : Throughout (fun _ event => Catalogued event.before ∧ Catalogued event.after) config.log := by
    rw [Interleaving.throughout_iff]
    intro newer event older same
    apply each event
    rw [same]
    exact List.mem_append_right newer List.mem_cons_self
  constructor
  · exact used
  · exact (catalogued_iff reached).mp ⟨last,always⟩

set_option maxRecDepth 100000 in
/-- Not every reachable store has the candidates of its live cells. -/
theorem not_always_catalogued : ¬ ∀ config : Config, Reached config → Catalogued config.state := by
  intro always
  have missing : ¬ Catalogued removedUnderPlan.state := by decide +kernel
  have reached : Reached removedUnderPlan := ran_reached _
  exact missing (always _ reached)
end

end Proofstorm.Store
