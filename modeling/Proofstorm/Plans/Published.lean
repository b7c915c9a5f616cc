import Proofstorm.Plans.Compile

/-!
The plans of an accepted cell: what each one carries of the component it is of, of the
release that is locked for it, and of the components that its links lead to.
-/
namespace Proofstorm.Plans
open Proofstorm.Core Validation Publication

section
variable {α β γ : Type} {r : α → β → Prop} {left : List α} {right : List β}

theorem map_eq_of_forall₂ {g : β → γ} {f : α → γ} (each : List.Forall₂ r left right)
    (same : ∀ a b, r a b → g b = f a) : right.map g = left.map f := by
  induction each with
  | nil => rfl
  | cons pair _ ih => rw [List.map_cons,List.map_cons,same _ _ pair,ih]

end

section
variable {cell effective : CellSpec} {catalog : CatalogResponse}

/-! ### The effective cell -/

/-- The identities of a cell's components. -/
def identities (cell : CellSpec) : List (String × String) :=
  cell.components.map fun component => (component.id,component.implementation)

theorem mem_identities {id implementation : String} : (id,implementation) ∈ identities cell ↔
    ∃ component ∈ cell.components, component.id = id ∧ component.implementation = implementation := by
  simp [identities]

/-- The effective cell has the components and links of the authored one. -/
theorem effective_identities (resolved : resolveEffectiveCell cell catalog = .ok effective) :
    (identities effective).Perm (identities cell) ∧ effective.links.Perm cell.links := by
  obtain ⟨components,each,rfl⟩ := resolveEffectiveCell_ok.mp resolved
  refine ⟨?_,List.perm_insertionSort _ _⟩
  have same : components.map (fun component => (component.id,component.implementation)) = identities cell := by
    refine map_eq_of_forall₂ each fun authored component is => ?_
    obtain ⟨contract,resolves⟩ := resolveComponent_ok.mp is
    rw [resolves.is]
    rfl
  rw [← same]
  exact (List.perm_insertionSort _ components).map _

/-! ### Its lock -/

/-- A component runs a release of its implementation. -/
theorem validateCatalogComponent_mem {component : ComponentSpec} {entry : CatalogEntry}
    (release : validateCatalogComponent component catalog = .ok entry) :
    entry ∈ catalog ∧ entry.id = component.implementation := by
  simp only [validateCatalogComponent,bind_ok,pure_ok,ensure_ok] at release
  obtain ⟨_,_,chosen,selected,_,_,_,_,_,_,_,_,_,_,rfl⟩ := release
  have member : chosen ∈ catalog.filter (·.id == component.implementation) := by
    unfold selectRelease at selected
    split at selected
    · exact List.mem_of_find?_eq_some (require_ok.mp selected)
    · split at selected
      · rename_i only
        cases selected
        exact List.mem_of_mem_filter (only ▸ List.mem_singleton_self _)
      · cases selected
  simpa using List.mem_filter.mp member

variable {digestJson : Json → String} {lock : Publication.ResolvedLock}

/-- The entry of a lock for a component is that of the release it runs. -/
theorem catalogId_of_locked (locked : lockOf digestJson effective catalog = .ok lock) (distinct : effective.ids.Nodup)
    {component : ComponentSpec} (member : component ∈ effective.components) {entry : Publication.LockEntry}
    (found : lock.entries.find? (·.componentId == component.id) = some entry) :
    entry.catalogId = component.implementation := by
  simp only [lockOf,bind_ok,pure_ok,mapM_ok] at locked
  obtain ⟨entries,each,rfl⟩ := locked
  have listed := (List.perm_insertionSort _ entries).mem_iff.mp (List.mem_of_find?_eq_some found)
  have named : entry.componentId = component.id := by simpa using List.find?_some found
  obtain ⟨other,there,made⟩ := exists_of_mem_right each listed
  simp only [lockEntry,bind_ok,pure_ok] at made
  obtain ⟨release,selected,_,_,_,_,_,_,rfl⟩ := made
  rw [List.inj_on_of_nodup_map distinct there member named] at selected
  exact (validateCatalogComponent_mem selected).2

/-- What a component asks of its release, and its release of those it is linked to. -/
theorem supported_of_locked (locked : lockOf digestJson effective catalog = .ok lock) {component : ComponentSpec}
    (member : component ∈ effective.components) : ∃ entry ∈ catalog, entry.id = component.implementation ∧
      requireSupportedEmbeddedBindings component entry = .ok () ∧
      ∀ link ∈ Publication.relevantLinks effective component, ∃ target ∈ effective.components, target.id = link.to ∧
        ∃ targetEntry, targetEntry.id = target.implementation ∧
          requireCompatibleDependency component.id entry link targetEntry = .ok () := by
  simp only [lockOf,bind_ok,pure_ok,mapM_ok] at locked
  obtain ⟨entries,each,rfl⟩ := locked
  obtain ⟨made,_,entryOf⟩ := exists_of_mem_left each member
  simp only [lockEntry,bind_ok,pure_ok,mapM_ok] at entryOf
  obtain ⟨entry,selected,_,_,_,embedded,contracts,linked,rfl⟩ := entryOf
  obtain ⟨offered,named⟩ := validateCatalogComponent_mem selected
  refine ⟨entry,offered,named,embedded,fun link relevant => ?_⟩
  obtain ⟨contract,_,supported⟩ := exists_of_mem_left linked relevant
  simp only [linkedTargetContract,bind_ok,pure_ok,require_ok] at supported
  obtain ⟨target,found,targetEntry,release,_,_,_,compatible,_⟩ := supported
  exact ⟨target,List.mem_of_find?_eq_some found,by simpa using List.find?_some found,targetEntry,
    (validateCatalogComponent_mem release).2,compatible⟩

variable {revision : String} {plans : List ComponentPlanContract}

/-! ### Its plans -/

/-- What a link of a component leads to, as its plan has it. -/
structure Leads (effective : CellSpec) (lock : Publication.ResolvedLock) (link : LinkSpec)
    (target : TargetDescriptorContract × String) : Prop where
  component : ∃ component ∈ effective.components, component.id = link.to ∧ component.id = target.1.componentId ∧
    component.kind = target.1.kind ∧
    ∃ entry, lock.entries.find? (·.componentId == component.id) = some entry ∧ entry.catalogId = target.1.backendId
  ports : ∃ backend, defaultRegistry.require target.1.backendId = .ok backend ∧ target.1.ports = backend.servicePorts

/-- What a compiled plan carries of its component, which has `targets` for its links. -/
structure Compiled (effective : CellSpec) (lock : Publication.ResolvedLock) (component : ComponentSpec)
    (targets : List (TargetDescriptorContract × String)) (plan : ComponentPlanContract) : Prop where
  backend : ∃ backend, defaultRegistry.require plan.backendId = .ok backend ∧ ∃ config,
    defaultRegistry.resolveEffectiveComponent component = .ok config ∧
    EffectiveComponentConfig.tryFromComponent config = .ok plan.effectiveConfig ∧
    plan.targetDescriptor.ports = servicePorts backend plan.effectiveConfig ∧
    resolveExecutionMounts component.id plan.relevantLinks plan.linkedTargets
      (match plan.effectiveConfig with | .cdk config => config.needsChainBackend | .other => false)
      backend.executionMounts = .ok plan.mounts
  locked : ∃ entry, lock.entries.find? (·.componentId == component.id) = some entry ∧ entry.catalogId = plan.backendId
  conditions : plan.applicableConditions = applicableConditions plan.backendId
  aggregation : plan.conditionAggregation = defaultConditionAggregation plan.applicableConditions
  componentId : plan.componentId = component.id
  kind : plan.kind = component.kind
  links : plan.relevantLinks = sortLinks (effective.planLinks component.id)
  reached : List.Forall₂ (fun link target => linkedTarget effective lock component link = .ok target)
    (effective.planLinks component.id) targets
  linkedTargets : plan.linkedTargets = ((effective.planLinks component.id).zip targets).map fun (link,target,_) =>
    (link.id,target)
  credentials : ∃ credentials, List.Forall₂ (fun mount credential => compileCredential component.id
    (((effective.planLinks component.id).zip targets).map fun (link,target,state) => (link.id,target.componentId,state))
    mount = .ok credential) plan.mounts credentials ∧ plan.credentials = credentials.filterMap id

variable {component : ComponentSpec}

theorem linkedTarget_ok {link : LinkSpec} {target : TargetDescriptorContract × String}
    (found : linkedTarget effective lock component link = .ok target) : Leads effective lock link target := by
  simp only [linkedTarget,bind_ok,require_ok,invalidPlan_ok,pure_ok] at found
  obtain ⟨there,known,entry,locked,backend,installed,rfl⟩ := found
  exact ⟨⟨there,List.mem_of_find?_eq_some known,by simpa using List.find?_some known,rfl,rfl,entry,locked,rfl⟩,
    backend,installed,rfl⟩

variable {targets : List (TargetDescriptorContract × String)} {plan : ComponentPlanContract}

theorem Compiled.leads (compiled : Compiled effective lock component targets plan) :
    List.Forall₂ (Leads effective lock) (effective.planLinks component.id) targets :=
  compiled.reached.imp fun _ _ => linkedTarget_ok

theorem compileComponentPlan_ok (compiled : compileComponentPlan revision effective lock component = .ok plan) :
    ∃ targets, Compiled effective lock component targets plan := by
  simp only [compileComponentPlan,bind_ok,require_ok,mapM_ok,invalidPlan_ok,compileContract,ensure_ok,pure_ok]
    at compiled
  obtain ⟨entry,found,targets,each,backend,installed,_,_,_,_,_,_,config,resolved,typed,read,mounts,mounted,credentials,
    credited,rfl⟩ := compiled
  have known : backend.id = entry.catalogId := by simpa using List.find?_some (require_ok.mp installed)
  exact ⟨targets,{
    backend := ⟨backend,known ▸ installed,config,resolved,read,rfl,mounted⟩
    locked := ⟨entry,found,known.symm⟩
    conditions := rfl
    aggregation := rfl
    componentId := rfl
    kind := rfl
    links := rfl
    reached := each
    linkedTargets := rfl
    credentials := ⟨credentials,credited,rfl⟩ }⟩

theorem Compiled.mem_links (compiled : Compiled effective lock component targets plan) {link : LinkSpec} :
    link ∈ plan.relevantLinks ↔ link ∈ effective.planLinks component.id := by
  rw [compiled.links]
  exact (List.perm_insertionSort _ _).mem_iff

/-- Every plan is of a component, and every component has a plan. -/
theorem compileComponentPlans_ok (compiled : compileComponentPlans revision effective lock = .ok plans) :
    (plans.map ComponentPlanContract.componentId).Perm effective.ids ∧
    (∀ plan ∈ plans, ∃ component ∈ effective.components, ∃ targets, Compiled effective lock component targets plan) ∧
    ∀ component ∈ effective.components, ∃ plan ∈ plans, ∃ targets, Compiled effective lock component targets plan := by
  simp only [compileComponentPlans,bind_ok,mapM_ok,pure_ok] at compiled
  obtain ⟨unsorted,each,rfl⟩ := compiled
  have perm : (unsorted.insertionSort fun a b => a.componentId ≤ b.componentId).Perm unsorted :=
    List.perm_insertionSort _ unsorted
  have ids : unsorted.map ComponentPlanContract.componentId = effective.ids :=
    map_eq_of_forall₂ each fun component plan made => by
      obtain ⟨_,compiled⟩ := compileComponentPlan_ok made
      exact compiled.componentId
  have named := perm.map ComponentPlanContract.componentId
  rw [ids] at named
  refine ⟨named,fun plan member => ?_,fun component member => ?_⟩
  · obtain ⟨component,there,made⟩ := exists_of_mem_right each (perm.mem_iff.mp member)
    exact ⟨component,there,compileComponentPlan_ok made⟩
  · obtain ⟨plan,there,made⟩ := exists_of_mem_left each member
    exact ⟨plan,perm.mem_iff.mpr there,compileComponentPlan_ok made⟩

/-- The backend of a plan is the implementation of its component. -/
theorem Compiled.backendId (locked : lockOf digestJson effective catalog = .ok lock) (distinct : effective.ids.Nodup)
    (member : component ∈ effective.components)
    {targets : List (TargetDescriptorContract × String)} {plan : ComponentPlanContract}
    (compiled : Compiled effective lock component targets plan) : plan.backendId = component.implementation := by
  obtain ⟨entry,found,same⟩ := compiled.locked
  rw [← same,catalogId_of_locked locked distinct member found]

/-- A cell that publication accepts, and the plans that its effective cell is run by. -/
def RunsBy (digestJson : Json → String) (catalog : CatalogResponse) (cell : CellSpec) (revision : String)
    (plans : List ComponentPlanContract) : Prop :=
  ∃ lock effective, resolveLock digestJson cell catalog = .ok lock ∧
    resolveEffectiveCell cell catalog = .ok effective ∧ compileComponentPlans revision effective lock = .ok plans

/-- The plans that an authored cell comes to be run by. -/
def publishedPlans (digestJson : Json → String) (catalog : CatalogResponse) (cell : CellSpec) (revision : String) :
    Except AdapterError (List ComponentPlanContract) := do
  let lock ← invalidPlan (resolveLock digestJson cell catalog)
  let effective ← invalidPlan (resolveEffectiveCell cell catalog)
  compileComponentPlans revision effective lock

theorem publishedPlans_ok :
    publishedPlans digestJson catalog cell revision = .ok plans ↔ RunsBy digestJson catalog cell revision plans := by
  simp only [publishedPlans,RunsBy,bind_ok,invalidPlan_ok]
  constructor
  · rintro ⟨lock,locked,effective,rest⟩
    exact ⟨lock,effective,locked,rest⟩
  · rintro ⟨lock,effective,locked,rest⟩
    exact ⟨lock,locked,effective,rest⟩

end

end Proofstorm.Plans
