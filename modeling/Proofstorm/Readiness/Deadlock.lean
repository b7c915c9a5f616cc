import Proofstorm.Readiness.Rounds

/-!
When readiness deadlocks. An accepted cell compiles to plans whose links are those of
the cell, backend or not; with everything else true of its components, all of them are
marked ready exactly when these links do not run in a circle through components that
wait for their dependencies. Nothing that acceptance checks keeps a Lightning peer link
from closing such a circle.
-/
namespace Proofstorm.Readiness
open Proofstorm.Core Validation Publication Plans Waiting

/-! ### What a component waits for -/

/-- A component waits for every component that a link of its plan leads to, if its
    backend reports on dependencies. -/
def Awaits (cell : CellSpec) (id other : String) : Prop :=
  ∃ component ∈ cell.components, component.id = id ∧ waitsFor component.implementation = true ∧
    ∃ link ∈ cell.planLinks id, link.to = other

section
variable {cell effective : CellSpec} {catalog : CatalogResponse}

theorem mem_planLinks {id : String} {link : LinkSpec} : link ∈ cell.planLinks id ↔ link ∈ cell.links ∧
    (link.from = id ∨ (∃ component ∈ cell.components, component.id = id ∧ component.implementation = sparkProcessor) ∧
      link.kind = .sparkBackend ∧ ∃ own ∈ cell.links, own.from = id ∧ own.kind = .sparkBackend ∧ own.to = link.from) := by
  unfold CellSpec.planLinks
  dsimp only
  split_ifs with processor
  · simp only [List.any_eq_true,Bool.and_eq_true,beq_iff_eq] at processor
    simp only [List.mem_append,List.mem_filter,beq_iff_eq,Bool.and_eq_true,List.contains_iff_mem,List.mem_map]
    constructor
    · rintro (⟨member,own⟩ | ⟨member,spark,own,⟨⟨there,named⟩,kind⟩,reached⟩)
      · exact ⟨member,.inl own⟩
      · exact ⟨member,.inr ⟨processor,spark,own,there,named,kind,reached⟩⟩
    · rintro ⟨member,own | ⟨_,spark,own,there,named,kind,reached⟩⟩
      · exact .inl ⟨member,own⟩
      · exact .inr ⟨member,spark,own,⟨⟨there,named⟩,kind⟩,reached⟩
  · simp only [List.any_eq_true,Bool.and_eq_true,beq_iff_eq] at processor
    simp only [List.mem_filter,beq_iff_eq]
    constructor
    · rintro ⟨member,own⟩
      exact ⟨member,.inl own⟩
    · rintro ⟨member,own | ⟨is,_⟩⟩
      · exact ⟨member,own⟩
      · exact absurd is processor

theorem planLinks_effective (resolved : resolveEffectiveCell cell catalog = .ok effective) {id : String} {link : LinkSpec} :
    link ∈ effective.planLinks id ↔ link ∈ cell.planLinks id := by
  obtain ⟨components,links⟩ := effective_identities resolved
  simp only [mem_planLinks,← mem_identities,components.mem_iff,links.mem_iff]

theorem awaits_effective (resolved : resolveEffectiveCell cell catalog = .ok effective) {id other : String} :
    Awaits effective id other ↔ Awaits cell id other := by
  have components := (effective_identities resolved).1
  have known : ∀ c : CellSpec, Awaits c id other ↔ ∃ implementation, (id,implementation) ∈ identities c ∧
      waitsFor implementation = true ∧ ∃ link ∈ c.planLinks id, link.to = other := by
    intro c
    simp only [mem_identities]
    exact ⟨fun ⟨component,member,named,waits⟩ => ⟨_,⟨component,member,named,rfl⟩,waits⟩,
      fun ⟨_,⟨component,member,named,is⟩,waits⟩ => ⟨component,member,named,is ▸ waits⟩⟩
  simp only [known,components.mem_iff,planLinks_effective resolved]

/-! ### What plans need -/

variable {digestJson : Json → String} {lock : Publication.ResolvedLock} {revision : String}
  {plans : List ComponentPlanContract}

/-- The plans of a locked cell are planned, and need what its components await. -/
theorem planned_of_compiled (locked : lockOf digestJson effective catalog = .ok lock) (distinct : effective.ids.Nodup)
    (compiled : compileComponentPlans revision effective lock = .ok plans) :
    Planned plans ∧ (plans.map ComponentPlanContract.componentId).Perm effective.ids ∧
      ∀ id other, Needs plans id other ↔ Awaits effective id other := by
  obtain ⟨named,componentOf,planOf⟩ := compileComponentPlans_ok compiled
  have planned := named.nodup_iff.mpr distinct
  have waits : ∀ component ∈ effective.components, ∀ targets plan, Compiled effective lock component targets plan →
      plan.dependent = waitsFor component.implementation := by
    intro component member targets plan made
    rw [ComponentPlanContract.dependent,made.conditions,made.backendId locked distinct member,waitsFor]
  refine ⟨⟨fun plan member => ?_,planned,fun plan member link carried => ?_⟩,named,fun id other => ⟨?_,?_⟩⟩
  · obtain ⟨_,_,_,made⟩ := componentOf plan member
    exact ⟨plan.backendId,made.conditions,made.aggregation⟩
  · obtain ⟨component,_,targets,made⟩ := componentOf plan member
    obtain ⟨target,_,leads⟩ := exists_of_mem_left made.leads (made.mem_links.mp carried)
    obtain ⟨reached,there,arrives,_⟩ := leads.component
    obtain ⟨other,listed,_,made'⟩ := planOf reached there
    exact ⟨other,listed,made'.componentId.trans arrives⟩
  · rintro ⟨plan,member,rfl,dependent,link,carried,rfl⟩
    obtain ⟨component,there,targets,made⟩ := componentOf plan member
    rw [waits component there targets plan made] at dependent
    rw [made.componentId]
    exact ⟨component,there,rfl,dependent,link,made.mem_links.mp carried,rfl⟩
  · rintro ⟨component,there,rfl,waiting,link,carried,rfl⟩
    obtain ⟨plan,listed,targets,made⟩ := planOf component there
    exact ⟨plan,listed,made.componentId,(waits component there targets plan made).trans waiting,link,
      made.mem_links.mpr carried,rfl⟩

end

/-! ### The observation -/

section
variable {plans : List ComponentPlanContract} {resources : ComponentObservationResources}
  {previous : List ComponentStatus} {stopped : List String} {now : Int}

/-- Every condition of every component is true, except that its dependencies and with
    them the component itself may not be ready. -/
def OthersObserved (statuses : List ComponentStatus) : Prop :=
  ∀ status ∈ statuses, ∀ condition ∈ status.conditions, condition.conditionType ≠ .dependenciesReady →
    condition.conditionType ≠ .componentReady → condition.state = .true

/-- Passes keep what stands of each component. -/
theorem kept_passes (planned : Planned plans) (stopped : List String) (passes : Nat) {statuses : List ComponentStatus}
    (each : List.Forall₂ (Kept resources now false) plans statuses) :
    List.Forall₂ (Kept resources now false) plans (resolvePasses plans stopped now passes statuses) := by
  induction passes generalizing statuses with
  | zero => exact each
  | succ passes ih =>
    have next : List.Forall₂ (Kept resources now false) plans (resolvePass plans stopped now statuses) :=
      forall₂_zipWith each fun plan status member kept =>
        (resolveComponent_spec (priorPass statuses) stopped (planned.contracted plan member) kept).1
    rw [resolvePasses]
    split_ifs
    · exact next
    · exact ih next

/-- The observation of plans that nothing of is stopped marks each as its rounds settle it. -/
theorem observed_ready (planned : Planned plans) (running : ∀ plan ∈ plans, plan.componentId ∉ stopped)
    (others : OthersObserved (observeComponentStatuses plans resources previous stopped now)) :
    List.Forall₂ (fun plan status => status.id = plan.componentId ∧
        (status.ready = true ↔ Settled (Independent plans) (Needs plans) plans.length plan.componentId)) plans
      (observeComponentStatuses plans resources previous stopped now) := by
  let first := fun plan : ComponentPlanContract => observeComponent plan resources previous false now
  let passes := if (plans.filter ComponentPlanContract.dependent).isEmpty then 0 else plans.length
  have observed : observeComponentStatuses plans resources previous stopped now =
      (resolvePasses plans stopped now passes (plans.map first)).map (finishStatus previous) := by
    rw [observeComponentStatuses,resolveDependencyConditions]
    have each : plans.map (fun plan =>
        observeComponent plan resources previous (stopped.contains plan.componentId) now) = plans.map first := by
      refine List.map_congr_left fun plan member => ?_
      have up : stopped.contains plan.componentId = false := by simpa using running plan member
      rw [up]
    simp only [each]
    rfl
  have kept := kept_passes planned stopped passes (forall₂_map_self fun plan member =>
    (observeComponent_spec resources previous false now (planned.contracted plan member)).1)
  -- What the statuses report in the end is what was observed of each component alone.
  have standing : ∀ plan ∈ plans, OthersTrue resources now plan := by
    intro plan member wanted applicable other unready
    obtain ⟨status,there,holds⟩ := exists_of_mem_left kept member
    obtain ⟨_,typed,states⟩ := @finishStatus_spec previous status
    have present : wanted ∈ types (finishStatus previous status).conditions := by
      rw [typed,holds.types]
      exact applicable
    obtain ⟨condition,found⟩ := Option.isSome_iff_exists.mp (conditionOf_isSome present)
    have about : condition.conditionType = wanted := by simpa using List.find?_some found
    have listed := List.mem_map_of_mem (f := finishStatus previous) there
    change finishStatus previous status ∈ (resolvePasses plans stopped now passes (plans.map first)).map _ at listed
    rw [← observed] at listed
    have reported := others _ listed condition (List.mem_of_find?_eq_some found) (about ▸ other) (about ▸ unready)
    rw [← holds.others wanted applicable other unready,← states,stateOf,found]
    exact reported
  have marks := marks_passes planned standing stopped passes (forall₂_map_self fun plan member =>
    marks_first previous planned member (standing plan member))
  have all : ∀ plan ∈ plans, Settled (Independent plans) (Needs plans) (0 + passes) plan.componentId ↔
      Settled (Independent plans) (Needs plans) plans.length plan.componentId := by
    intro plan member
    rw [Nat.zero_add]
    by_cases none_waits : (plans.filter ComponentPlanContract.dependent).isEmpty
    · have alone : Independent plans plan.componentId := by
        intro other there _
        rw [List.isEmpty_iff,List.filter_eq_nil_iff] at none_waits
        simpa using none_waits other there
      exact iff_of_true (settled_of_start independent_free alone _) (settled_of_start independent_free alone _)
    · rw [show passes = plans.length from if_neg none_waits]
  rw [observed]
  refine List.forall₂_map_right_iff.mpr (forall₂_imp marks fun plan status member holds => ?_)
  have distinct : (types status.conditions).Nodup := by
    rw [holds.kept.types]
    exact (planned.contracted plan member).nodup
  exact ⟨(@finishStatus_spec previous status).1.trans holds.kept.id,
    (finishStatus_ready distinct).trans (holds.ready.trans (all plan member))⟩

end

/-! ### Accepted cells -/

/-- Readiness deadlocks exactly on circles of links through components that wait. -/
theorem ready_iff_acyclic {digestJson : Json → String} {catalog : CatalogResponse} {cell : CellSpec}
    {revision : String} {plans : List ComponentPlanContract} (runs : RunsBy digestJson catalog cell revision plans)
    {resources : ComponentObservationResources} {previous : List ComponentStatus} {stopped : List String} {now : Int}
    (running : ∀ id ∈ cell.ids, id ∉ stopped)
    (others : OthersObserved (observeComponentStatuses plans resources previous stopped now)) :
    (∀ id ∈ cell.ids, ∃ status ∈ observeComponentStatuses plans resources previous stopped now,
      status.id = id ∧ status.ready = true) ↔ Acyclic (Awaits cell) := by
  obtain ⟨lock,effective,locked,resolved,compiled⟩ := runs
  obtain ⟨valid,effective',resolved',locked⟩ := resolveLock_ok.mp locked
  obtain rfl : effective = effective' := Except.ok.inj (resolved.symm.trans resolved')
  have ids : effective.ids.Perm cell.ids := by
    have each := (effective_identities resolved).1.map Prod.fst
    simpa [identities,CellSpec.ids,Function.comp_def] using each
  have distinct : cell.ids.Nodup := (validateComponents_clean.mp (validateCell_valid.mp valid).components).2
  obtain ⟨planned,named,needs⟩ := planned_of_compiled locked (ids.nodup_iff.mpr distinct) compiled
  have named := named.trans ids
  have listed : ∀ id, id ∈ cell.ids ↔ id ∈ planIds plans := fun id => by
    rw [planIds,List.mem_toFinset,named.mem_iff]
  have each := observed_ready planned (fun plan member =>
    running plan.componentId ((listed _).mpr (mem_planIds.mpr ⟨plan,member,rfl⟩))) others
  have same : Acyclic (Awaits cell) ↔ Acyclic (Needs plans) := by
    have equal : Needs plans = Awaits cell := by
      funext id other
      exact propext ((needs id other).trans (awaits_effective resolved))
    rw [equal]
  rw [same,← settled_iff_acyclic independent_free planned.closed needs_inside,planned.card]
  constructor
  · intro ready id inside
    obtain ⟨status,there,rfl,marked⟩ := ready id ((listed id).mpr inside)
    obtain ⟨plan,member,is,settled⟩ := exists_of_mem_right each there
    rw [is]
    exact settled.mp marked
  · intro settled id inside
    obtain ⟨plan,member,rfl⟩ := mem_planIds.mp ((listed id).mp inside)
    obtain ⟨status,there,is,marked⟩ := exists_of_mem_left each member
    exact ⟨status,there,is,marked.mpr (settled _ (mem_planIds.mpr ⟨plan,member,rfl⟩))⟩

/-! ### Two nodes that are each other's peers -/

def lightningCatalog : CatalogResponse :=
  [catalogEntry bitcoinCore "31.1"
      "proofstorm-registry.localhost:5000/bitcoin-core@sha256:b3faffac8d3414faf57df61889c354d15fb2851782c2002251ea8df5be358ad6"
      "sha256:bitcoin-core-schema" "sha256:bitcoin-core-source" [.nativeCli,.regtest,.persistentState] [] ⟨[],[],[]⟩
      [.cell,.workspace],
    catalogEntry lnd "0.21.4-beta"
      "docker.io/lightninglabs/lnd@sha256:04d06edcc0f6e99a5e797ea34959f330add222226f840cd86afbc31f8f29627d"
      "sha256:lnd-schema" "sha256:lnd-source" [.nativeCli,.regtest,.persistentState,.bolt11]
      [⟨.chainBackend,"bitcoin-core",["31.1"]⟩] ⟨[],[],[]⟩ [.cell,.workspace]]

/-- Two Lightning nodes on one chain, with the peer links given. -/
def lightningCell (peers : List LinkSpec) : CellSpec :=
  { apiVersion := apiVersion
    name := "lightning-cell"
    components := [⟨"alice",.lightning,"lnd",none,"lnd/0.20/v1",.cell,[]⟩,
      ⟨"bob",.lightning,"lnd",none,"lnd/0.20/v1",.cell,[]⟩,
      ⟨"chain",.bitcoin,"bitcoin-core",none,"bitcoin-core/31/v1",.cell,[]⟩]
    links := [⟨"alice-chain",.chainBackend,"alice","chain",some (.chain .regtest)⟩,
      ⟨"bob-chain",.chainBackend,"bob","chain",some (.chain .regtest)⟩] ++ peers
    policy := ⟨[],⟨none,none,none⟩⟩ }

def peer (id source target : String) : LinkSpec := ⟨id,.lightningPeer,source,target,none⟩

/-- Everything that is read off the cluster is true. -/
def healthy : ComponentObservationResources :=
  let reading := fun reason _ => Reading.mk .true reason "observed"
  ⟨reading .workloadAvailable,reading .storageBound,reading .credentialsProjected,reading .endpointsReady,
    reading .protocolResponding⟩

def lightningPublished (peers : List LinkSpec) : Except AdapterError (List ComponentPlanContract) :=
  publishedPlans documentDigest lightningCatalog (lightningCell peers) "sha256:revision"

def lightningPlans (peers : List LinkSpec) : List ComponentPlanContract := (lightningPublished peers).toOption.getD []

theorem lightning_runs {peers : List LinkSpec} (published : (lightningPublished peers).toOption.isSome = true) :
    RunsBy documentDigest lightningCatalog (lightningCell peers) "sha256:revision" (lightningPlans peers) := by
  refine publishedPlans_ok.mp ?_
  unfold lightningPlans
  change lightningPublished peers = _
  cases result : lightningPublished peers with
  | ok plans => rfl
  | error e =>
    rw [result] at published
    cases published

def lightningStatuses (peers : List LinkSpec) : List ComponentStatus :=
  observeComponentStatuses (lightningPlans peers) healthy [] [] 100

/-- One of them dials the other, and both become ready. -/
theorem ready_iff_acyclic_dialled :
    (∀ id ∈ (lightningCell [peer "to-bob" "alice" "bob"]).ids,
      ∃ status ∈ lightningStatuses [peer "to-bob" "alice" "bob"], status.id = id ∧ status.ready = true) ↔
    Acyclic (Awaits (lightningCell [peer "to-bob" "alice" "bob"])) :=
  ready_iff_acyclic (lightning_runs (by decide +kernel)) (by decide)
    (show OthersObserved (lightningStatuses _) by unfold OthersObserved; decide +kernel)

/-- Each is the other's peer, and neither ever becomes ready. -/
theorem peers_deadlock :
    RunsBy documentDigest lightningCatalog (lightningCell [peer "to-bob" "alice" "bob",peer "to-alice" "bob" "alice"])
      "sha256:revision" (lightningPlans [peer "to-bob" "alice" "bob",peer "to-alice" "bob" "alice"]) ∧
    OthersObserved (lightningStatuses [peer "to-bob" "alice" "bob",peer "to-alice" "bob" "alice"]) ∧
    ¬ ∀ id ∈ (lightningCell [peer "to-bob" "alice" "bob",peer "to-alice" "bob" "alice"]).ids,
      ∃ status ∈ lightningStatuses [peer "to-bob" "alice" "bob",peer "to-alice" "bob" "alice"],
        status.id = id ∧ status.ready = true := by
  refine ⟨lightning_runs (by decide +kernel),?_,by decide +kernel⟩
  unfold OthersObserved
  decide +kernel

end Proofstorm.Readiness
