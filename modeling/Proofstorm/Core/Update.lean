import Proofstorm.Core.Digest
import Proofstorm.Outcome
import Mathlib.Data.List.Sort

/-!
The update plan of a cell (`CellUpdatePlan::new`): what an edit from one
published revision to another adds, restarts, removes and deletes, and which of
its changes are refused. The lists of a plan are sorted and free of repetitions;
`new_added`, `new_removed` and `new_deletedData` say which ids they hold.
-/
namespace Proofstorm.Core

/-- `list.dedup()`: of equal neighbours the last is kept. -/
def dedup : List String → List String
  | [] => []
  | [a] => [a]
  | a :: b :: rest => if a = b then dedup (b :: rest) else a :: dedup (b :: rest)

@[simp] theorem mem_dedup {x : String} {list : List String} : x ∈ dedup list ↔ x ∈ list := by
  fun_induction dedup list with
  | case1 => rfl
  | case2 a => rfl
  | case3 b rest ih => simp [ih]
  | case4 a b rest different ih => simp [ih]

/-- `list.sort(); list.dedup()`. -/
def sortDedup (list : List String) : List String := dedup (list.insertionSort (· ≤ ·))

@[simp] theorem mem_sortDedup {x : String} {list : List String} : x ∈ sortDedup list ↔ x ∈ list := by
  simp [sortDedup]

def locked (revision : PublishedRevision) (component : String) : Except String LockEntry :=
  match revision.lock.entries.find? (fun entry => entry.componentId == component) with
  | some entry => .ok entry
  | none => .error s!"revision lock is missing component {component}"

def unsupportedConfigChange (component : String) (key : String) : String :=
  if key = "storage_size" then
    s!"{component}: live storage resizing is unsupported; set storage_size when adding a new component"
  else s!"{component}: changing {key} requires an explicit state migration"

/-- Settings that can change persistent state identity or immutable storage fields. -/
def stateSettings : List String :=
  ["storage","storage_backend","storage_size","database","network","wallet_name"]

/-- One component of the new cell against the component of its id in the old one. -/
def compareComponent (old new : PublishedRevision) (changes : CellChanges) (component : ComponentSpec) :
    Except String CellChanges := do
  let next ← locked new component.id
  let changes := { changes with requiredImages := changes.requiredImages ++ [next.image] }
  match old.cell.components.find? (fun c => c.id == component.id) with
  | some previous =>
    let prior ← locked old component.id
    let replaced :=
      if prior.image ≠ next.image ∨ prior.catalogId ≠ next.catalogId ∨
          previous.implementation ≠ component.implementation ∨ previous.kind ≠ component.kind then
        [s!"{component.id}: backend/image replacement requires a validated state migration"]
      else []
    let settings := (stateSettings.filter fun key => previous.config.lookup key ≠ component.config.lookup key).map
      (unsupportedConfigChange component.id)
    let changes := { changes with unsupported := changes.unsupported ++ replaced ++ settings }
    if prior.rolloutDigest = next.rolloutDigest then
      pure { changes with unchanged := changes.unchanged ++ [component.id] }
    else
      pure { changes with restarted := changes.restarted ++ [component.id] }
  | none => pure { changes with added := changes.added ++ [component.id] }

def CellChanges.none : CellChanges := ⟨[],[],[],[],[],false,false,[],[]⟩

def databases (revision : PublishedRevision) (component : String) : List LinkSpec :=
  revision.cell.links.filter fun link => link.from = component ∧ link.kind = .databaseBackend

/-- The ids of the old cell that the new one lacks. -/
def removedIds (old new : PublishedRevision) : List String :=
  (old.cell.components.filter fun c => ¬ new.cell.components.any fun n => n.id = c.id).map ComponentSpec.id

def reconnected (old new : PublishedRevision) : List String :=
  ((old.cell.components.filter fun c => new.cell.components.any fun n => n.id = c.id).filter fun c =>
    databases old c.id ≠ databases new c.id).map
      fun c => s!"{c.id}: database reconnection requires a validated data migration"

def CellUpdatePlan.isNoop (plan : CellUpdatePlan) : Bool :=
  plan.baseRevision = plan.targetRevision ∧ plan.changes.deletedData = []

/-- The components that the update restarts or removes. -/
def CellUpdatePlan.affected (plan : CellUpdatePlan) : List String :=
  sortDedup (plan.changes.restarted ++ plan.changes.removed)

section
variable [CoreFunctions]

def CellUpdatePlan.bindInstance (plan : CellUpdatePlan) (key : String) : CellUpdatePlan :=
  let bound := { plan with instanceKey := key, digest := "" }
  { bound with digest := digestJson (.plan bound) }

def CellUpdatePlan.new (target : CellUpdateTarget) (old new : PublishedRevision) : Except String CellUpdatePlan := do
  let compared ← new.cell.components.foldlM (compareComponent old new) CellChanges.none
  let removed := removedIds old new
  let deleted := if target.deleteData then target.deleteRetained ++ removed else target.deleteRetained
  let changes : CellChanges :=
    { added := sortDedup compared.added
      unchanged := sortDedup compared.unchanged
      restarted := sortDedup compared.restarted
      removed := sortDedup removed
      deletedData := sortDedup deleted
      connectionsChanged := old.cell.links ≠ new.cell.links
      policyChanged := old.cell.policy ≠ new.cell.policy
      unsupported := sortDedup (compared.unsupported ++ reconnected old new)
      requiredImages := sortDedup compared.requiredImages }
  let plan : CellUpdatePlan :=
    { instanceKey := ""
      target := target
      baseRevision := old.digest
      targetRevision := new.digest
      targetLock := new.lock.digest
      changes := changes
      digest := "" }
  pure { plan with digest := digestJson (.plan plan) }

/-! ### What a plan says -/

/-- A plan describes the edit from `old` to `new`. -/
structure CellUpdatePlan.Describes (plan : CellUpdatePlan) (old new : PublishedRevision) : Prop where
  base : plan.baseRevision = old.digest
  target : plan.targetRevision = new.digest
  lock : plan.targetLock = new.lock.digest
  added : ∀ id, id ∈ plan.changes.added ↔ id ∈ new.cell.ids ∧ id ∉ old.cell.ids
  removed : ∀ id, id ∈ plan.changes.removed ↔ id ∈ old.cell.ids ∧ id ∉ new.cell.ids
  deletedData : ∀ id, id ∈ plan.changes.deletedData ↔
    id ∈ plan.target.deleteRetained ∨ (plan.target.deleteData = true ∧ id ∈ plan.changes.removed)

variable {id : String} {changes result : CellChanges} {plan : CellUpdatePlan}

omit [CoreFunctions] in
theorem mem_removedIds {old new : PublishedRevision} :
    id ∈ removedIds old new ↔ id ∈ old.cell.ids ∧ id ∉ new.cell.ids := by
  simp only [removedIds,CellSpec.ids,List.mem_map,List.mem_filter]
  constructor
  · rintro ⟨c,⟨member,lacks⟩,rfl⟩
    refine ⟨⟨c,member,rfl⟩,?_⟩
    rintro ⟨n,present,same⟩
    simp at lacks
    exact lacks n present same
  · rintro ⟨⟨c,member,rfl⟩,lacks⟩
    refine ⟨c,⟨member,?_⟩,rfl⟩
    simp
    exact fun n present same => lacks ⟨n,present,same⟩

omit [CoreFunctions] in
theorem compareComponent_added {old new : PublishedRevision} {c : ComponentSpec}
    (compared : compareComponent old new changes c = .ok result) (id : String) :
    id ∈ result.added ↔ id ∈ changes.added ∨ (id = c.id ∧ id ∉ old.cell.ids) := by
  simp only [compareComponent,bind_ok] at compared
  obtain ⟨next,_,compared⟩ := compared
  cases found : old.cell.components.find? (fun other => other.id == c.id) with
  | some previous =>
    have present : c.id ∈ old.cell.ids := by
      have same := List.find?_some found
      exact List.mem_map.mpr ⟨previous,List.mem_of_find?_eq_some found,by simpa using same⟩
    have kept : result.added = changes.added := by
      simp only [found,bind_ok] at compared
      obtain ⟨prior,_,compared⟩ := compared
      split at compared <;> cases compared <;> rfl
    rw [kept]
    constructor
    · exact .inl
    · rintro (member | ⟨rfl,absent⟩)
      · exact member
      · exact absurd present absent
  | none =>
    simp only [found,pure_ok] at compared
    subst compared
    have absent : c.id ∉ old.cell.ids := by
      have none_ := List.find?_eq_none.mp found
      simp only [CellSpec.ids,List.mem_map]
      rintro ⟨other,member,same⟩
      exact none_ other member (by simp [same])
    simp only [List.mem_append,List.mem_singleton]
    constructor
    · rintro (member | rfl)
      · exact .inl member
      · exact .inr ⟨rfl,absent⟩
    · rintro (member | ⟨rfl,_⟩)
      · exact .inl member
      · exact .inr rfl

omit [CoreFunctions] in
theorem compared_added {old new : PublishedRevision} {list : List ComponentSpec}
    (compared : list.foldlM (compareComponent old new) changes = .ok result) (id : String) :
    id ∈ result.added ↔ id ∈ changes.added ∨ (id ∈ list.map ComponentSpec.id ∧ id ∉ old.cell.ids) := by
  induction list generalizing changes with
  | nil =>
    simp only [List.foldlM_nil,pure_ok] at compared
    simp [compared]
  | cons c rest ih =>
    simp only [List.foldlM_cons,bind_ok] at compared
    obtain ⟨middle,first,others⟩ := compared
    rw [ih others,compareComponent_added first]
    simp only [List.map_cons,List.mem_cons]
    tauto

/-- The plan of an edit describes it and keeps the target it was asked for. -/
theorem new_describes {target : CellUpdateTarget} {old new : PublishedRevision}
    (built : CellUpdatePlan.new target old new = .ok plan) : plan.Describes old new ∧ plan.target = target := by
  simp only [CellUpdatePlan.new,bind_ok,pure_ok] at built
  obtain ⟨compared,compare,rfl⟩ := built
  refine ⟨⟨rfl,rfl,rfl,?_,?_,?_⟩,rfl⟩
  · intro id
    simp only [mem_sortDedup,compared_added compare]
    simp [CellChanges.none,CellSpec.ids]
  · intro id
    simp only [mem_sortDedup,mem_removedIds]
  · intro id
    simp only [mem_sortDedup]
    by_cases data : target.deleteData = true <;> simp [data]

theorem CellUpdatePlan.Describes.bindInstance {old new : PublishedRevision}
    (describes : plan.Describes old new) (key : String) : (plan.bindInstance key).Describes old new :=
  ⟨describes.base,describes.target,describes.lock,describes.added,describes.removed,describes.deletedData⟩

omit [CoreFunctions] in
@[simp] theorem mem_affected :
    id ∈ plan.affected ↔ id ∈ plan.changes.restarted ∨ id ∈ plan.changes.removed := by
  simp [CellUpdatePlan.affected]
end
end Proofstorm.Core
