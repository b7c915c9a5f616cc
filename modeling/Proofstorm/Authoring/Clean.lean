import Proofstorm.Authoring.Cell

/-!
What it is to pass the checks of a cell. A check walks the entries in order and
looks back at the earlier ones; here each is a statement about the entries as a
collection: no two of them share a name, and every one meets its conditions.
-/
namespace Proofstorm.Validation
open Proofstorm.Core

variable {α : Type} {cell : CellSpec} {link : LinkSpec}

/-- A check of each entry against the earlier ones is one of every pair. -/
theorem forall_take_iff {r : α → α → Prop} {list : List α} :
    (∀ (index : Nat) (x : α), list[index]? = some x → ∀ y ∈ list.take index, r y x) ↔ list.Pairwise r := by
  rw [List.pairwise_iff_getElem]
  constructor
  · intro earlier i j left right before
    refine earlier j _ (List.getElem?_eq_getElem right) _ ?_
    exact List.mem_take_iff_getElem.mpr ⟨i,by omega,rfl⟩
  · intro pairs index x found y member
    obtain ⟨bound,rfl⟩ := List.getElem?_eq_some_iff.mp found
    obtain ⟨i,small,rfl⟩ := List.mem_take_iff_getElem.mp member
    exact pairs i index (by omega) bound (by omega)

/-- A check that joins one of the entry alone and one against the earlier entries. -/
theorem enumerate_pairwise {check : Nat → α → List ValidationIssue} {list : List α} {p : α → Prop}
    {r : α → α → Prop}
    (passes : ∀ index x, x ∈ list → (check index x = [] ↔ p x ∧ ∀ y ∈ list.take index, r y x)) :
    enumerate check list = [] ↔ (∀ x ∈ list, p x) ∧ list.Pairwise r := by
  rw [enumerate_eq_nil,← forall_take_iff]
  constructor
  · intro clean
    constructor
    · intro x member
      obtain ⟨index,bound,rfl⟩ := List.getElem_of_mem member
      exact ((passes index _ member).mp (clean index _ (List.getElem?_eq_getElem bound))).1
    · intro index x found
      exact ((passes index x (List.mem_of_getElem? found)).mp (clean index x found)).2
  · rintro ⟨each,pairs⟩ index x found
    have member := List.mem_of_getElem? found
    exact (passes index x member).mpr ⟨each x member,pairs index x found⟩

theorem any_eq_false_iff {list : List α} {p : α → Bool} : list.any p = false ↔ ∀ x ∈ list, p x = false := by
  rw [List.any_eq_false]
  simp

/-! ### Components -/

structure ComponentClean (cell : CellSpec) (component : ComponentSpec) : Prop where
  id : isSlug component.id = true
  implementation : isSlug component.implementation = true
  configVersion : isConfigVersionIdentifier component.configVersion = true
  size : exceedsPolicyLimit (configBytes component) cell.policy.limits.maxConfigBytes = false

theorem validateComponents_clean :
    validateComponents cell = [] ↔ (∀ component ∈ cell.components, ComponentClean cell component) ∧ cell.ids.Nodup := by
  have shape : validateComponents cell = [] ↔ (∀ component ∈ cell.components, ComponentClean cell component) ∧
      cell.components.Pairwise fun a b => a.id ≠ b.id := by
    refine enumerate_pairwise fun index component member => ?_
    simp only [validateComponent,List.append_eq_nil_iff,issue_eq_nil,Bool.not_eq_false',any_eq_false_iff]
    constructor
    · rintro ⟨⟨⟨⟨slug,fresh⟩,implementation⟩,version⟩,size⟩
      exact ⟨⟨slug,implementation,version,size⟩,fun y earlier => by simpa using fresh y earlier⟩
    · rintro ⟨clean,fresh⟩
      exact ⟨⟨⟨⟨clean.id,fun y earlier => by simpa using fresh y earlier⟩,clean.implementation⟩,
        clean.configVersion⟩,clean.size⟩
  rw [shape,CellSpec.ids,List.Nodup,List.pairwise_map]

/-! ### Links -/

/-- A binding is there exactly on a backend link, and is one of its kind. -/
def BindingClean (link : LinkSpec) : Prop :=
  match link.binding with
  | some binding =>
    binding.linkKind = link.kind ∧ ∀ method unit, binding = .payment method unit → isCashuUnit unit = true
  | none => link.kind.isBackend = false

theorem isBackend_linkKind (binding : DependencyBinding) : binding.linkKind.isBackend = true := by
  cases binding <;> rfl

theorem validateBinding_clean {index : Nat} : validateBinding index link = [] ↔ BindingClean link := by
  unfold validateBinding BindingClean
  cases bound : link.binding with
  | none => simp
  | some binding =>
    by_cases same : binding.linkKind = link.kind
    · have backend : link.kind.isBackend = true := same ▸ isBackend_linkKind binding
      cases binding <;> simp_all
    · by_cases backend : link.kind.isBackend
      · cases binding <;> simp_all
      · cases binding <;> simp_all

/-- Two links that do not compete for a database: on one server their names differ,
    and one component binds each role once. -/
structure DatabasesApart (earlier later : LinkSpec) : Prop where
  name : ∀ name, later.databaseName = some name → earlier.to = later.to → earlier.kind = .databaseBackend →
    earlier.databaseName ≠ some name
  role : ∀ role database, later.binding = some (.database role database) → earlier.from = later.from →
    earlier.binding.any (·.binds role) = false

/-- The database name of a link is one that PostgreSQL keeps as it is. -/
def NameClean (link : LinkSpec) : Prop :=
  ∀ name, link.databaseName = some name → name.utf8ByteSize ≤ 63 ∧ isPostgresIdentifier name = true

theorem validateDatabaseRole_clean {index : Nat} {previous : List LinkSpec} :
    validateDatabaseRole index link previous = [] ↔ NameClean link ∧ ∀ earlier ∈ previous, DatabasesApart earlier link := by
  unfold validateDatabaseRole
  split
  · rename_i role database bound
    have named : link.databaseName = some (link.databaseName.getD "") := by
      simp [LinkSpec.databaseName,bound]
    simp only [List.append_eq_nil_iff,issue_eq_nil,any_eq_false_iff,Bool.or_eq_false_iff,decide_eq_false_iff_not,
      not_lt,Bool.not_eq_false']
    constructor
    · rintro ⟨⟨spelled,names⟩,roles⟩
      constructor
      · intro name is
        rw [is] at spelled
        exact spelled
      · intro earlier member
        constructor
        · intro name is server kind same
          have apart := names earlier member
          rw [is] at apart
          simp [server,kind,same] at apart
        · intro role' database' is source
          rw [bound] at is
          cases is
          have apart := roles earlier member
          simpa [source] using apart
    · rintro ⟨spelled,apart⟩
      refine ⟨⟨spelled _ named,fun earlier member => ?_⟩,fun earlier member => ?_⟩
      · by_contra taken
        simp only [Bool.not_eq_false,Bool.and_eq_true,beq_iff_eq] at taken
        obtain ⟨⟨server,kind⟩,same⟩ := taken
        exact (apart earlier member).name _ named server kind same
      · by_cases source : earlier.from = link.from
        · have free := (apart earlier member).role role database bound source
          simp [free]
        · simp [source]
  · rename_i other
    have unnamed : link.databaseName = none := by
      unfold LinkSpec.databaseName
      split
      · rename_i role database bound
        exact absurd bound (other role database)
      · rfl
    refine ⟨fun _ => ⟨?_,?_⟩,fun _ => rfl⟩
    · intro name is
      simp [unnamed] at is
    · intro earlier _
      constructor
      · intro name is
        simp [unnamed] at is
      · intro role database bound
        exact absurd bound (other role database)

structure LinkClean (cell : CellSpec) (link : LinkSpec) : Prop where
  id : isSlug link.id = true
  binding : BindingClean link
  name : NameClean link
  apart : link.from ≠ link.to
  source : link.from ∈ cell.ids
  target : link.to ∈ cell.ids
  kinds : ∀ source target, kindOf cell link.from = some source → kindOf cell link.to = some target →
    compatibleKinds link source target = true

/-- Two links of a cell have ids and databases of their own. -/
structure LinksApart (earlier later : LinkSpec) : Prop where
  id : earlier.id ≠ later.id
  databases : DatabasesApart earlier later

theorem validateLinkKinds_clean {index : Nat} :
    validateLinkKinds cell index link = [] ↔ ∀ source target, kindOf cell link.from = some source →
      kindOf cell link.to = some target → compatibleKinds link source target = true := by
  unfold validateLinkKinds
  cases kindOf cell link.from <;> cases kindOf cell link.to <;> simp

theorem validateLinks_clean :
    validateLinks cell = [] ↔ (∀ link ∈ cell.links, LinkClean cell link) ∧ cell.links.Pairwise LinksApart := by
  refine enumerate_pairwise fun index link member => ?_
  simp only [validateLink,validateLinkIdentity,validateEndpoint,List.append_eq_nil_iff,issue_eq_nil,
    Bool.not_eq_false',any_eq_false_iff,validateBinding_clean,validateDatabaseRole_clean,validateLinkKinds_clean,
    List.contains_iff_mem]
  constructor
  · rintro ⟨⟨⟨⟨⟨⟨⟨slug,fresh⟩,binding⟩,name,databases⟩,apart⟩,source⟩,target⟩,kinds⟩
    refine ⟨⟨slug,binding,name,by simpa using apart,source,target,kinds⟩,fun earlier before => ?_⟩
    exact ⟨by simpa using fresh earlier before,databases earlier before⟩
  · rintro ⟨clean,earlier⟩
    refine ⟨⟨⟨⟨⟨⟨⟨clean.id,fun y before => by simpa using (earlier y before).id⟩,clean.binding⟩,clean.name,
      fun y before => (earlier y before).databases⟩,by simpa using clean.apart⟩,clean.source⟩,clean.target⟩,clean.kinds⟩

/-! ### The whole cell -/

/-- The checks of a cell, one by one. -/
structure CellClean (cell : CellSpec) : Prop where
  version : cell.apiVersion = apiVersion
  name : isSlug cell.name = true
  limits : validateLimits cell = []
  components : validateComponents cell = []
  links : validateLinks cell = []
  authentication : validateAuthenticationTopology cell = []
  processors : validateProcessorTopology cell = []
  bark : validateBarkTopology cell = []
  spark : validateSparkTopology cell = []
  cdk : validateCdkTopology cell = []
  override : validatePaymentOverride cell = []
  native : validateNativeSettings cell = []

theorem validateCell_valid : (validateCell cell).valid = true ↔ CellClean cell := by
  simp only [validateCell,ValidationReport.fromIssues,List.isEmpty_iff,List.append_eq_nil_iff,issue_eq_nil,
    decide_eq_false_iff_not,not_not,Bool.not_eq_false']
  constructor
  · rintro ⟨⟨⟨⟨⟨⟨⟨⟨⟨⟨⟨version,name⟩,limits⟩,components⟩,links⟩,authentication⟩,processors⟩,bark⟩,spark⟩,cdk⟩,override⟩,
      native⟩
    exact ⟨version,name,limits,components,links,authentication,processors,bark,spark,cdk,override,native⟩
  · intro clean
    exact ⟨⟨⟨⟨⟨⟨⟨⟨⟨⟨⟨clean.version,clean.name⟩,clean.limits⟩,clean.components⟩,clean.links⟩,clean.authentication⟩,
      clean.processors⟩,clean.bark⟩,clean.spark⟩,clean.cdk⟩,clean.override⟩,clean.native⟩

end Proofstorm.Validation
