import Proofstorm.Rendering.Paths

/-!
How the plan of a CDK mint is rendered on each of its payment paths: with the section
of its processor, of its node or of LDK Node, and with the on-chain one.
-/
namespace Proofstorm.Rendering
open Proofstorm.Core Validation Publication Plans

/-! ### The plan of a mint -/

/-- A descriptor of a component. -/
structure Describes (descriptor : TargetDescriptorContract) (target : ComponentSpec) : Prop where
  componentId : descriptor.componentId = target.id
  kind : descriptor.kind = target.kind
  backendId : descriptor.backendId = target.implementation
  contract : ∃ contract, defaultRegistry.require target.implementation = .ok contract ∧ contract.kind = target.kind ∧
    descriptor.ports = contract.servicePorts

/-- What the plan of a CDK mint carries of it. -/
structure MintPlan (cell : CellSpec) (mint : ComponentSpec) (config : CdkMintConfig) (plan : ComponentPlanContract) :
    Prop where
  componentId : plan.componentId = mint.id
  backendId : plan.backendId = "cdk"
  kind : plan.kind = .mint
  effectiveConfig : plan.effectiveConfig = .cdk config
  ports : plan.targetDescriptor.ports = servicePorts Publication.cdk (.cdk config)
  ldk : config.embedsLdk = embedsLdk mint
  bdk : config.embedsBdk = embedsBdk mint
  unit : config.embeddedLightningUnit = configured mint "embedded_lightning_unit" "sat"
  links : plan.relevantLinks.Perm (cell.links.filter (·.from == mint.id))
  distinct : (plan.relevantLinks.map LinkSpec.id).Nodup
  reaches : ∀ link ∈ plan.relevantLinks, ∃ target ∈ cell.components, target.id = link.to ∧
    ∃ descriptor, targetOf plan.linkedTargets link = some descriptor ∧ Describes descriptor target
  one : ∀ link ∈ plan.relevantLinks, ∀ other ∈ plan.relevantLinks, link.to = other.to →
    targetOf plan.linkedTargets link = targetOf plan.linkedTargets other
  mounts : resolveExecutionMounts plan.componentId plan.relevantLinks plan.linkedTargets config.needsChainBackend
    (executionMounts "cdk") = .ok plan.mounts
  credentials : ∃ states credentials, List.Forall₂ (fun mount credential =>
      compileCredential plan.componentId states mount = .ok credential) plan.mounts credentials ∧
    plan.credentials = credentials.filterMap id ∧ ∀ link ∈ plan.relevantLinks, ∃ descriptor contract,
      targetOf plan.linkedTargets link = some descriptor ∧ states.lookup link.id = some (descriptor.componentId,contract)

/-- A setting as the native configuration has it is the one that checks read. -/
theorem chosen_configured {component : ComponentSpec} {name first second : String} {value : Bool} (apart : first ≠ second)
    (read : typed component name (chosen first second) = .ok value) :
    value = (configured component name first == second) := by
  rw [typed,require_ok,Option.bind_eq_some_iff] at read
  obtain ⟨json,set,read⟩ := read
  unfold chosen at read
  cases text : json.asStr with
  | none =>
    rw [text] at read
    cases read
  | some text' =>
    rw [text] at read
    simp only [configured,set,Option.bind_some,text,Option.getD_some]
    dsimp only at read
    split_ifs at read with one two
    · cases read
      simp [one,apart]
    · cases read
      simp [two]

theorem typed_configured {component : ComponentSpec} {name default value : String}
    (read : typed component name Json.asStr = .ok value) : value = configured component name default := by
  rw [typed,require_ok] at read
  simp [configured,read]

section
variable {digestJson : Json → String} {catalog : CatalogResponse} {cell : CellSpec} {lock : Publication.ResolvedLock}
  {mint : ComponentSpec} {targets : List (TargetDescriptorContract × String)} {plan : ComponentPlanContract}

/-- A list of what links lead to is looked up by the links' ids. -/
theorem lookup_zip {γ : Type} {links : List LinkSpec} (same : links.length = targets.length)
    (distinct : (links.map LinkSpec.id).Nodup) (f : TargetDescriptorContract × String → γ) {link : LinkSpec}
    {target : TargetDescriptorContract × String} (paired : (link,target) ∈ links.zip targets) :
    ((links.zip targets).map fun pair => (pair.1.id,f pair.2)).lookup link.id = some (f target) := by
  refine Entries.lookup_of_mem (List.mem_map.mpr ⟨_,paired,rfl⟩) ?_
  have keys := congrArg (List.map LinkSpec.id) (List.map_fst_zip same.le)
  rw [List.map_map] at keys ⊢
  change ((links.zip targets).map (LinkSpec.id ∘ Prod.fst)).Nodup
  rwa [keys]

/-- What a plan has for one of its links. -/
theorem reached_of_compiled (compiled : Compiled cell lock mint targets plan)
    (distinct : ((cell.planLinks mint.id).map LinkSpec.id).Nodup) {link : LinkSpec} (carried : link ∈ plan.relevantLinks) :
    ∃ target, linkedTarget cell lock mint link = .ok target ∧ targetOf plan.linkedTargets link = some target.1 ∧
      (((cell.planLinks mint.id).zip targets).map fun (link,target,state) => (link.id,target.componentId,state)).lookup
        link.id = some (target.1.componentId,target.2) := by
  obtain ⟨same,each⟩ := List.forall₂_iff_zip.mp compiled.reached
  obtain ⟨index,bound,rfl⟩ := List.getElem_of_mem (compiled.mem_links.mp carried)
  have paired : ((cell.planLinks mint.id)[index],targets[index]) ∈ (cell.planLinks mint.id).zip targets :=
    List.mem_iff_getElem.mpr ⟨index,by simp [bound,same ▸ bound],by simp⟩
  refine ⟨targets[index],each paired,?_,lookup_zip same distinct (fun target => (target.1.componentId,target.2)) paired⟩
  rw [targetOf,compiled.linkedTargets]
  exact lookup_zip same distinct Prod.fst paired

/-- The target of a link does not depend on the rest of the link. -/
theorem linkedTarget_congr {link other : LinkSpec} (same : link.to = other.to) :
    linkedTarget cell lock mint link = linkedTarget cell lock mint other := by
  unfold linkedTarget
  rw [same]

theorem cdkMintConfig_ok {config : CdkMintConfig} (read : cdkMintConfig mint = .ok config) :
    config.embedsLdk = embedsLdk mint ∧ config.embedsBdk = embedsBdk mint ∧
      config.embeddedLightningUnit = configured mint "embedded_lightning_unit" "sat" := by
  simp only [cdkMintConfig,bind_ok,pure_ok] at read
  obtain ⟨_,_,_,_,_,_,_,_,ldk,readLdk,unit,readUnit,bdk,readBdk,_,_,_,_,_,_,_,_,rfl⟩ := read
  exact ⟨chosen_configured (by decide) readLdk,chosen_configured (by decide) readBdk,typed_configured readUnit⟩

/-- The links of a component that is no Spark processor are its own. -/
theorem planLinks_eq (distinct : cell.ids.Nodup) (member : mint ∈ cell.components)
    (other : mint.implementation ≠ sparkProcessor) :
    cell.planLinks mint.id = cell.links.filter (·.from == mint.id) := by
  unfold CellSpec.planLinks
  dsimp only
  rw [if_neg]
  intro spark
  simp only [List.any_eq_true,Bool.and_eq_true,beq_iff_eq] at spark
  obtain ⟨component,there,same,is⟩ := spark
  rw [eq_of_id distinct there member same] at is
  exact other is

/-- The plan of a mint of an effective cell. -/
theorem mintPlan (resolves : ∀ component ∈ cell.components, ∃ contract, Resolves catalog contract component component)
    (distinct : cell.ids.Nodup) (links : validateLinks cell = []) (locked : lockOf digestJson cell catalog = .ok lock)
    (member : mint ∈ cell.components) (is : mint.implementation = "cdk")
    (compiled : Compiled cell lock mint targets plan) : ∃ config, MintPlan cell mint config plan := by
  have backendId := (compiled.backendId locked distinct member).trans is
  obtain ⟨contract,itself⟩ := resolves mint member
  cases itself.contract_eq is require_cdk
  obtain ⟨backend,installed,effective,resolved,typed,ports,mounts⟩ := compiled.backend
  rw [backendId,require_cdk,Except.ok.injEq] at installed
  subst installed
  have same : effective = mint := by
    simp only [Registry.resolveEffectiveComponent,bind_ok,pure_ok,ensure_ok,is,require_cdk,Except.ok.injEq] at resolved
    obtain ⟨_,rfl,_,_,_,_,_,_,rfl⟩ := resolved
    exact itself.is.symm
  subst same
  rw [EffectiveComponentConfig.tryFromComponent,if_pos is] at typed
  obtain ⟨config,read,shape⟩ : ∃ config, cdkMintConfig effective = .ok config ∧
      EffectiveComponentConfig.cdk config = plan.effectiveConfig := by
    cases read : cdkMintConfig effective with
    | error e =>
      rw [read] at typed
      cases typed
    | ok config =>
      rw [read] at typed
      exact ⟨config,rfl,Except.ok.inj typed⟩
  have own := planLinks_eq distinct member (by rw [is]; decide)
  have apart : ((cell.planLinks effective.id).map LinkSpec.id).Nodup := by
    rw [own,List.Nodup,List.pairwise_map]
    exact ((validateLinks_clean.mp links).2.imp LinksApart.id).filter _
  have carried : plan.relevantLinks.Perm (cell.planLinks effective.id) := by
    rw [compiled.links]
    exact List.perm_insertionSort _ _
  obtain ⟨ldk,bdk,unit⟩ := cdkMintConfig_ok read
  rw [← shape] at ports mounts
  obtain ⟨credentials,credited,kept⟩ := compiled.credentials
  refine ⟨config,{
    componentId := compiled.componentId
    backendId := backendId
    kind := compiled.kind.trans itself.kind.symm
    effectiveConfig := shape.symm
    ports := ports
    ldk := ldk
    bdk := bdk
    unit := unit
    links := own ▸ carried
    distinct := (carried.map LinkSpec.id).nodup_iff.mpr apart
    reaches := ?_
    one := ?_
    mounts := ?_
    credentials := ?_ }⟩
  · intro link there
    obtain ⟨target,found,known,_⟩ := reached_of_compiled compiled apart there
    have leads := linkedTarget_ok found
    obtain ⟨component,inside,named,described,kind,entry,listed,catalogued⟩ := leads.component
    obtain ⟨contract,resolved⟩ := resolves component inside
    have implementation := catalogId_of_locked locked distinct inside listed
    refine ⟨component,inside,named,_,known,?_⟩
    obtain ⟨backend,required,ports⟩ := leads.ports
    rw [← catalogued,implementation] at required
    cases resolved.found.symm.trans required
    exact ⟨described.symm,kind.symm,catalogued.symm.trans implementation,_,resolved.found,resolved.kind,ports⟩
  · intro link there other there' same
    obtain ⟨target,found,known,_⟩ := reached_of_compiled compiled apart there
    obtain ⟨target',found',known',_⟩ := reached_of_compiled compiled apart there'
    rw [linkedTarget_congr same,found'] at found
    cases found
    rw [known,known']
  · rw [compiled.componentId]
    exact mounts
  · refine ⟨_,credentials,by rw [compiled.componentId]; exact credited,kept,fun link there => ?_⟩
    obtain ⟨target,_,known,state⟩ := reached_of_compiled compiled apart there
    exact ⟨target.1,target.2,known,state⟩

end

/-! ### Its backends -/

theorem kindOf_eq {cell : CellSpec} (distinct : cell.ids.Nodup) {target : ComponentSpec}
    (member : target ∈ cell.components) : kindOf cell target.id = some target.kind := by
  unfold kindOf
  cases found : cell.components.reverse.find? (·.id == target.id) with
  | none => simpa using List.find?_eq_none.mp found target (List.mem_reverse.mpr member)
  | some other =>
    have same : other.id = target.id := by simpa using List.find?_some found
    rw [eq_of_id distinct (List.mem_reverse.mp (List.mem_of_find?_eq_some found)) member same]
    rfl

/-- A chain is reached at its RPC port. -/
theorem rpc_of_bitcoin {contract : BackendContract} (installed : contract ∈ defaultRegistry)
    (bitcoin : contract.kind = .bitcoin) : contract.servicePorts.lookup "rpc" = some 18443 := by
  have each : ∀ contract ∈ defaultRegistry, contract.kind = .bitcoin →
      contract.servicePorts.lookup "rpc" = some 18443 := by
    decide +kernel
  exact each contract installed bitcoin

section
variable {cell : CellSpec} {mint : ComponentSpec} {config : CdkMintConfig} {plan : ComponentPlanContract}
  (planned : MintPlan cell mint config plan) (accepted : AcceptedMint cell mint)
include planned

theorem MintPlan.mem_links {link : LinkSpec} : link ∈ plan.relevantLinks ↔ link ∈ cell.links ∧ link.from = mint.id := by
  rw [planned.links.mem_iff,List.mem_filter,beq_iff_eq]

theorem MintPlan.outgoing_perm (kind : LinkKind) :
    (plan.relevantLinks.filter (·.kind == kind)).Perm (outgoing cell mint kind) := by
  have filtered := planned.links.filter (·.kind == kind)
  rw [List.filter_filter] at filtered
  refine filtered.trans (.of_eq (List.filter_congr fun link _ => ?_))
  rw [Bool.and_comm]

theorem MintPlan.descriptor (distinct : cell.ids.Nodup) {link : LinkSpec} (carried : link ∈ plan.relevantLinks)
    {target : ComponentSpec} (there : target ∈ cell.components) (reached : target.id = link.to) :
    ∃ descriptor, targetOf plan.linkedTargets link = some descriptor ∧ Describes descriptor target := by
  obtain ⟨other,inside,named,descriptor,known,described⟩ := planned.reaches link carried
  obtain rfl := eq_of_id distinct inside there (named.trans reached.symm)
  exact ⟨descriptor,known,described⟩

/-- The chain of a mint that embeds backends is found, with its RPC port. -/
theorem MintPlan.chainTarget (accepted : AcceptedMint cell mint) : ∃ chain, chainTarget plan config = .ok chain ∧
    ((embedsLdk mint || embedsBdk mint) = true → chain.isSome = true) := by
  unfold Rendering.chainTarget
  rw [CdkMintConfig.needsChainBackend,planned.ldk,planned.bdk]
  split_ifs with embeds
  · obtain ⟨link,only⟩ := accepted.chain embeds
    have selected : (plan.relevantLinks.filter fun link => link.kind == .chainBackend && link.from == plan.componentId) =
        [link] := by
      have perm := planned.outgoing_perm .chainBackend
      rw [only] at perm
      rw [← List.perm_singleton.mp perm]
      refine List.filter_congr fun link carried => ?_
      rw [planned.componentId,(planned.mem_links.mp carried).2,beq_self_eq_true,Bool.and_true]
    have carried : link ∈ plan.relevantLinks :=
      List.mem_of_mem_filter (selected ▸ List.mem_singleton_self link)
    have there : link ∈ outgoing cell mint .chainBackend := only ▸ List.mem_singleton_self link
    obtain ⟨target,inside,reached,descriptor,known,described⟩ := planned.reaches link carried
    obtain ⟨contract,required,kind,ports⟩ := described.contract
    have bitcoin : target.kind = .bitcoin := by
      have kinds := (accepted.links link (List.mem_of_mem_filter there)).kinds
      have own := (planned.mem_links.mp carried).2
      have chained : link.kind = .chainBackend := by
        have holds := (List.mem_filter.mp there).2
        simp only [Bool.and_eq_true,beq_iff_eq] at holds
        exact holds.2
      rw [own,← reached] at kinds
      have joins := kinds _ _ (kindOf_eq accepted.distinct accepted.member) (kindOf_eq accepted.distinct inside)
      simp only [compatibleKinds,chained,decide_eq_true_eq] at joins
      exact joins.2
    have rpc : targetPort descriptor "rpc" = .ok 18443 := by
      rw [targetPort,require_ok,ports]
      exact rpc_of_bitcoin (List.mem_of_find?_eq_some (require_ok.mp required)) (kind.trans bitcoin)
    refine ⟨some (descriptor,18443),?_,fun _ => rfl⟩
    have found : planLinkedTarget plan .chainBackend = .ok descriptor := by
      unfold planLinkedTarget
      rw [selected]
      exact require_ok.mpr known
    simp only [bind_ok,pure_ok]
    exact ⟨descriptor,found,18443,rpc,rfl⟩
  · exact ⟨none,rfl,fun embeds' => absurd embeds' embeds⟩

theorem MintPlan.onchain {chain : Option (TargetDescriptorContract × Nat)}
    (reached : (embedsLdk mint || embedsBdk mint) = true → chain.isSome = true) :
    ∃ onchain, onchainSection config chain = .ok onchain ∧ onchain.isSome = embedsBdk mint := by
  unfold onchainSection
  rw [planned.bdk]
  split_ifs with embeds
  · obtain ⟨⟨target,rpc⟩,rfl⟩ := Option.isSome_iff_exists.mp (reached (by rw [embeds,Bool.or_true]))
    exact ⟨_,rfl,embeds.symm⟩
  · exact ⟨none,rfl,(Bool.not_eq_true _ ▸ embeds).symm⟩

end

/-! ### Its linked path -/

theorem cashuUnit_sat : cashuUnit "sat" = .ok "sat" := by decide +kernel

theorem bindingUnits_cdk (profile : ProcessorProfile) : profile.bindingUnits "cdk" = ["sat"] := by
  cases profile <;> decide

variable {bindings : List (Option DependencyBinding)}

theorem mem_of_lastUnit {unit : Option String} {last : String}
    (found : lastUnit unit bindings = some last) : unit = some last ∨ ∃ pair ∈ payments bindings, pair.2 = last := by
  induction bindings generalizing unit with
  | nil => exact .inl found
  | cons binding rest ih =>
    cases binding with
    | none =>
      obtain before | ⟨pair,member,same⟩ := ih found
      · exact .inl before
      · exact .inr ⟨pair,member,same⟩
    | some binding =>
      cases binding with
      | payment method bound =>
        obtain before | ⟨pair,member,same⟩ := @ih (some bound) found
        · exact .inr ⟨(method,bound),List.mem_cons_self,Option.some.inj before⟩
        · exact .inr ⟨pair,List.mem_cons_of_mem _ member,same⟩
      | chain | ark | spark | database | authentication =>
        obtain before | ⟨pair,member,same⟩ := ih found
        · exact .inl before
        · exact .inr ⟨pair,member,same⟩

/-- The bindings of a CDK mint to a processor are all in sat. -/
theorem boundMethods_cdk {profile : ProcessorProfile}
    {advertised : List PaymentMethod}
    (bound : (profile.boundMethods "cdk" bindings).any (fun (_,methods) => methods == advertised) = true) :
    profile.boundMethods "cdk" bindings = some ("sat",advertised) := by
  rw [Option.any_eq_true] at bound
  obtain ⟨⟨unit,methods⟩,found,same⟩ := bound
  rw [found,eq_of_beq same]
  obtain ⟨binds,last,_,_⟩ := boundMethods_eq_some.mp found
  obtain none | ⟨pair,member,rfl⟩ := mem_of_lastUnit last
  · cases none
  · have supported := binds.supported pair member
    rw [bindingUnits_cdk,List.mem_singleton] at supported
    rw [supported]

theorem mountLinks_eq {targets : List (String × TargetDescriptorContract)} {links : List LinkSpec}
    {binding : DependencyBinding} {implementation : String} :
    mountLinks links targets .paymentBackend binding implementation = (links.filter (·.kind == .paymentBackend)).filter
      fun link => link.binding == some binding && (targetOf targets link).any (·.backendId == implementation) := by
  rw [mountLinks,List.filter_filter]
  refine List.filter_congr fun link _ => ?_
  ac_rfl

/-- No payment link of a mint reaches a processor. -/
def Direct (cell : CellSpec) (mint : ComponentSpec) : Prop :=
  ∀ link ∈ outgoing cell mint .paymentBackend, ∀ target ∈ cell.components, target.id = link.to →
    isProcessor target = false

section
variable {cell : CellSpec} {mint : ComponentSpec} {config : CdkMintConfig} {plan : ComponentPlanContract}
  (planned : MintPlan cell mint config plan)
include planned

theorem MintPlan.paymentLinks : (paymentLinks plan).Perm (outgoing cell mint .paymentBackend) :=
  planned.outgoing_perm .paymentBackend

variable {target : ComponentSpec}

/-- The processor that every payment link reaches is the one that the plan selects. -/
theorem MintPlan.grpc (distinct : cell.ids.Nodup) {profile : ProcessorProfile}
    {advertised : List PaymentMethod} (there : target ∈ cell.components) (kind : target.kind = .paymentProcessor)
    (implementation : target.implementation = profile.implementation)
    (linked : outgoing cell mint .paymentBackend ≠ [])
    (reached : ∀ link ∈ outgoing cell mint .paymentBackend, link.to = target.id)
    (bound : (profile.boundMethods "cdk" ((outgoing cell mint .paymentBackend).map LinkSpec.binding)).any
      (fun (_,methods) => methods == advertised) = true) :
    ∃ descriptor, grpcTarget plan = .ok (some ⟨descriptor,profile,"sat",advertised⟩) ∧ Describes descriptor target := by
  have perm := planned.paymentLinks
  have reach : ∀ link ∈ Rendering.paymentLinks plan, link.to = target.id :=
    fun link member => reached link (perm.mem_iff.mp member)
  have methods := boundMethods_cdk (boundMethods_perm (perm.symm.map LinkSpec.binding) bound)
  cases links : Rendering.paymentLinks plan with
  | nil =>
    rw [links] at perm
    exact absurd perm.nil_eq.symm linked
  | cons first rest =>
    have here : first ∈ Rendering.paymentLinks plan := links ▸ List.mem_cons_self
    obtain ⟨descriptor,known,described⟩ := planned.descriptor distinct (List.mem_of_mem_filter here) there (reach first here).symm
    have all : ∀ link ∈ Rendering.paymentLinks plan, link.from = plan.componentId ∧ link.to = descriptor.componentId ∧
        targetOf plan.linkedTargets link = some descriptor := by
      intro link member
      refine ⟨(planned.mem_links.mp (List.mem_of_mem_filter member)).2.trans planned.componentId.symm,
        (reach link member).trans described.componentId.symm,?_⟩
      rw [← known]
      exact planned.one link (List.mem_of_mem_filter member) first (List.mem_of_mem_filter here)
        ((reach link member).trans (reach first here).symm)
    have named : descriptor.backendId = profile.implementation := described.backendId.trans implementation
    have sort : descriptor.kind = .paymentProcessor := described.kind.trans kind
    refine ⟨descriptor,?_,described⟩
    have selected : (Rendering.paymentLinks plan).findSome? (fun link => (targetOf plan.linkedTargets link).filter
        fun target => target.kind == .paymentProcessor || (ProcessorProfile.forImplementation target.backendId).isSome) =
          some descriptor := by
      rw [links,List.findSome?_cons,known,Option.filter_some,if_pos (by rw [sort]; rfl)]
    have chosen : paymentTarget plan profile profile.implementation .paymentProcessor =
        .ok ⟨descriptor,profile,"sat",advertised⟩ := by
      unfold paymentTarget
      dsimp only
      rw [planned.backendId,methods,links,List.head?_cons,Option.bind_some,known]
      dsimp only
      rw [if_pos]
      refine ⟨named,sort,?_⟩
      rw [← links,List.all_eq_true]
      intro link member
      simp [all link member]
    unfold grpcTarget
    rw [selected]
    dsimp only
    rw [named,forImplementation_eq_some.mpr rfl,bind_ok]
    exact ⟨profile,rfl,by rw [chosen]; rfl⟩

section
variable (direct : Direct cell mint)
include direct

/-- A plan whose payment links reach no processor selects none. -/
theorem MintPlan.grpc_none : grpcTarget plan = .ok none := by
  have none_selected : (Rendering.paymentLinks plan).findSome? (fun link => (targetOf plan.linkedTargets link).filter
      fun target => target.kind == .paymentProcessor || (ProcessorProfile.forImplementation target.backendId).isSome) =
        none := by
    rw [List.findSome?_eq_none_iff]
    intro link member
    obtain ⟨target,there,reached,descriptor,known,described⟩ := planned.reaches link (List.mem_of_mem_filter member)
    have other := direct link (planned.paymentLinks.mem_iff.mp member) target there reached
    rw [known,Option.filter_some,described.kind,described.backendId,if_neg]
    rw [isProcessor] at other
    rw [other]
    exact Bool.false_ne_true
  unfold grpcTarget
  rw [none_selected]

/-- No mount of a node is left out where no link reaches a processor. -/
theorem MintPlan.applicable (mount : ExecutionMount) :
    inapplicable plan.relevantLinks plan.linkedTargets mount = false := by
  rw [inapplicable,Bool.and_eq_false_iff]
  right
  rw [List.any_eq_false]
  intro link carried holds
  simp only [Bool.and_eq_true,beq_iff_eq] at holds
  obtain ⟨payment,processor⟩ := holds
  obtain ⟨target,there,reached,descriptor,known,described⟩ := planned.reaches link carried
  have other := direct link (planned.paymentLinks.mem_iff.mp (List.mem_filter.mpr ⟨carried,by simp [payment]⟩)) target
    there reached
  rw [known,Option.any_some,described.kind] at processor
  rw [isProcessor,processor] at other
  cases other

/-- The mounts of a mint's plan: its configuration, its data, and those of linked nodes. -/
theorem MintPlan.nodeMounts : ∃ lnd cln,
    resolveMount plan.componentId plan.relevantLinks plan.linkedTargets (alternativeMount "lnd" "/lnd") = .ok lnd ∧
    resolveMount plan.componentId plan.relevantLinks plan.linkedTargets (alternativeMount "cln" "/cln") = .ok cln ∧
    plan.mounts = [⟨"config","/config",true,.componentConfig⟩,⟨"data","/app/data",false,.componentPersistentData⟩] ++
      [lnd,cln].filterMap id := by
  have resolved := planned.mounts
  simp only [resolveExecutionMounts,bind_ok,mapM_ok] at resolved
  obtain ⟨resolved,each,kept⟩ := resolved
  have shape : executionMounts "cdk" = [mount "config" "/config" true .componentConfig,
      mount "data" "/app/data" false .componentPersistentData,alternativeMount "lnd" "/lnd",
      alternativeMount "cln" "/cln"] := rfl
  rw [shape] at each
  cases each with
  | cons first each => cases each with
  | cons second each => cases each with
  | cons third each => cases each with
  | cons fourth each =>
    cases each
    have config : resolveMount plan.componentId plan.relevantLinks plan.linkedTargets
        (mount "config" "/config" true .componentConfig) = .ok (some ⟨"config","/config",true,.componentConfig⟩) := by
      rw [resolveMount,planned.applicable direct]
      rfl
    have data : resolveMount plan.componentId plan.relevantLinks plan.linkedTargets
        (mount "data" "/app/data" false .componentPersistentData) =
          .ok (some ⟨"data","/app/data",false,.componentPersistentData⟩) := by
      rw [resolveMount,planned.applicable direct]
      rfl
    cases config.symm.trans first
    cases data.symm.trans second
    refine ⟨_,_,third,fourth,?_⟩
    split at kept
    · cases kept
    · exact (Except.ok.inj kept).symm

/-- The mount of a node that no link reaches is left out. -/
theorem MintPlan.mount_none {name mountPath : String}
    (absent : mountLinks plan.relevantLinks plan.linkedTargets .paymentBackend (.payment .bolt11 "sat") name = []) :
    resolveMount plan.componentId plan.relevantLinks plan.linkedTargets (alternativeMount name mountPath) = .ok none := by
  rw [resolveMount,planned.applicable direct]
  simp only [alternativeMount,bolt11Data,absent,Bool.false_eq_true,if_false]

theorem MintPlan.mount_some {name mountPath : String} {link : LinkSpec}
    (found : mountLinks plan.relevantLinks plan.linkedTargets .paymentBackend (.payment .bolt11 "sat") name = [link]) :
    resolveMount plan.componentId plan.relevantLinks plan.linkedTargets (alternativeMount name mountPath) =
      .ok (some ⟨name,mountPath,true,.linkedStatefulData link.id⟩) := by
  rw [resolveMount,planned.applicable direct]
  simp only [alternativeMount,bolt11Data,found,Bool.false_eq_true,if_false]
end

/-- Without payment links no node is mounted. -/
theorem MintPlan.linkedSection_none (unlinked : outgoing cell mint .paymentBackend = []) :
    linkedSection plan config = .ok none := by
  have direct : Direct cell mint := by
    rw [Direct,unlinked]
    nofun
  have links : Rendering.paymentLinks plan = [] := (unlinked ▸ planned.paymentLinks).eq_nil
  obtain ⟨lnd,cln,first,second,mounts⟩ := planned.nodeMounts direct
  have absent : ∀ name, mountLinks plan.relevantLinks plan.linkedTargets .paymentBackend (.payment .bolt11 "sat") name =
      [] := by
    intro name
    rw [mountLinks_eq]
    exact congrArg (List.filter _) links
  cases (planned.mount_none direct (absent "lnd")).symm.trans first
  cases (planned.mount_none direct (absent "cln")).symm.trans second
  unfold linkedSection
  rw [mounts]
  rfl

/-- The only payment link of a mint, to a node. -/
structure NodeLink (cell : CellSpec) (mint : ComponentSpec) (link : LinkSpec) (target : ComponentSpec) : Prop where
  linked : outgoing cell mint .paymentBackend = [link]
  there : target ∈ cell.components
  reached : target.id = link.to
  implementation : target.implementation = "lnd" ∨ target.implementation = "cln"
  direct : isProcessor target = false
  bound : link.binding = some (.payment .bolt11 "sat")

omit planned in
theorem NodeLink.isDirect {link : LinkSpec} (node : NodeLink cell mint link target)
    (distinct : cell.ids.Nodup) : Direct cell mint := by
  rw [Direct,node.linked]
  intro other member component there reached
  obtain rfl := List.mem_singleton.mp member
  rw [eq_of_id distinct there node.there (reached.trans node.reached.symm)]
  exact node.direct

theorem MintPlan.node_links {link : LinkSpec} (node : NodeLink cell mint link target) :
    Rendering.paymentLinks plan = [link] := by
  have perm := planned.paymentLinks
  rw [node.linked] at perm
  exact List.perm_singleton.mp perm

/-- The mount of the node that is linked, and of no other. -/
theorem MintPlan.node_mounts (distinct : cell.ids.Nodup) {link : LinkSpec}
    (node : NodeLink cell mint link target) : ∃ mountPath, plan.mounts =
      [⟨"config","/config",true,.componentConfig⟩,⟨"data","/app/data",false,.componentPersistentData⟩,
        ⟨target.implementation,mountPath,true,.linkedStatefulData link.id⟩] := by
  have links := planned.node_links node
  have carried : link ∈ plan.relevantLinks := List.mem_of_mem_filter (links ▸ List.mem_singleton_self link)
  obtain ⟨descriptor,known,described⟩ := planned.descriptor distinct carried node.there node.reached
  have mounted : ∀ name, mountLinks plan.relevantLinks plan.linkedTargets .paymentBackend (.payment .bolt11 "sat") name =
      if target.implementation = name then [link] else [] := by
    intro name
    rw [mountLinks_eq]
    refine (congrArg (List.filter _) links).trans ?_
    rw [List.filter_singleton,node.bound,known,Option.any_some,described.backendId,beq_self_eq_true,Bool.true_and]
    by_cases is : target.implementation = name
    · rw [if_pos is,is,beq_self_eq_true,cond_true]
    · rw [if_neg is,beq_false_of_ne is,cond_false]
  obtain ⟨lnd,cln,first,second,mounts⟩ := planned.nodeMounts (node.isDirect distinct)
  have apart : "lnd" ≠ "cln" := by decide
  obtain is | is := node.implementation
  · rw [planned.mount_some (node.isDirect distinct) (by rw [mounted,if_pos is])] at first
    rw [planned.mount_none (node.isDirect distinct) (by rw [mounted,is,if_neg apart])] at second
    cases first
    cases second
    exact ⟨_,by rw [mounts,is]; rfl⟩
  · rw [planned.mount_none (node.isDirect distinct) (by rw [mounted,is,if_neg apart.symm])] at first
    rw [planned.mount_some (node.isDirect distinct) (by rw [mounted,if_pos is])] at second
    cases first
    cases second
    exact ⟨_,by rw [mounts,is]; rfl⟩

/-- What the mount of a linked node leads to, and whose storage it is. -/
theorem MintPlan.execution {link : LinkSpec} (carried : link ∈ plan.relevantLinks)
    {name mountPath : String} (other : name ≠ "config" ∧ name ≠ "data") (mounts : plan.mounts =
      [⟨"config","/config",true,.componentConfig⟩,⟨"data","/app/data",false,.componentPersistentData⟩,
        ⟨name,mountPath,true,.linkedStatefulData link.id⟩])
    {descriptor : TargetDescriptorContract} (known : targetOf plan.linkedTargets link = some descriptor) :
    planExecutionTarget plan name = .ok descriptor ∧ ∃ credential,
      planExecutionCredential plan name = .ok credential ∧ credential.sourceComponentId = descriptor.componentId := by
  have selected : plan.mounts.find? (·.name == name) = some ⟨name,mountPath,true,.linkedStatefulData link.id⟩ := by
    rw [mounts]
    simp [other.1.symm,other.2.symm]
  have found : plan.relevantLinks.find? (fun candidate => candidate.id == link.id && candidate.from == plan.componentId) =
      some link := by
    cases here : plan.relevantLinks.find? (fun candidate => candidate.id == link.id && candidate.from == plan.componentId) with
    | none =>
      have absent := List.find?_eq_none.mp here link carried
      rw [planned.componentId,(planned.mem_links.mp carried).2] at absent
      simp at absent
    | some candidate =>
      have holds := List.find?_some here
      simp only [Bool.and_eq_true,beq_iff_eq] at holds
      rw [List.inj_on_of_nodup_map planned.distinct (List.mem_of_find?_eq_some here) carried holds.1]
  constructor
  · simp only [planExecutionTarget,bind_ok,require_ok]
    refine ⟨_,selected,?_⟩
    simp only [bind_ok,require_ok]
    exact ⟨link,found,known⟩
  · obtain ⟨states,credentials,each,kept,stated⟩ := planned.credentials
    obtain ⟨described,contract,known',state⟩ := stated link carried
    cases known.symm.trans known'
    rw [mounts] at each
    cases each with
    | cons first each => cases each with
    | cons second each => cases each with
    | cons third each =>
      cases each
      cases first
      cases second
      simp only [compileCredential,state,bind_ok,require_ok,pure_ok,Option.some.injEq] at third
      obtain ⟨_,rfl,rfl⟩ := third
      refine ⟨⟨descriptor.componentId,contract,name,mountPath,true⟩,?_,rfl⟩
      unfold planExecutionCredential
      rw [kept]
      simp

/-- The section of the node that is linked. -/
theorem MintPlan.linkedSection_node (distinct : cell.ids.Nodup) {link : LinkSpec}
    (node : NodeLink cell mint link target) : ∃ payment, linkedSection plan config = .ok (some payment) ∧
      ∀ other, payment.served other = [(.bolt11,"sat",target.implementation)] := by
  have links := planned.node_links node
  have carried : link ∈ plan.relevantLinks := List.mem_of_mem_filter (links ▸ List.mem_singleton_self link)
  obtain ⟨descriptor,known,described⟩ := planned.descriptor distinct carried node.there node.reached
  obtain ⟨mountPath,mounts⟩ := planned.node_mounts distinct node
  have other : target.implementation ≠ "config" ∧ target.implementation ≠ "data" := by
    obtain is | is := node.implementation <;> rw [is] <;> decide
  obtain ⟨executed,credential,credited,source⟩ := planned.execution carried other mounts known
  have filtered : plan.mounts.filter (fun mount => mount.name == "lnd" || mount.name == "cln") =
      [⟨target.implementation,mountPath,true,.linkedStatefulData link.id⟩] := by
    rw [mounts]
    obtain is | is := node.implementation <;> rw [is] <;> rfl
  have unit : linkedUnit plan descriptor = .ok "sat" := by
    have bound : (plan.relevantLinks.filter fun link => link.kind == .paymentBackend &&
        ((targetOf plan.linkedTargets link).map TargetDescriptorContract.componentId) == some descriptor.componentId) =
          [link] := by
      have both := congrArg (List.filter fun link => (targetOf plan.linkedTargets link).map
        TargetDescriptorContract.componentId == some descriptor.componentId) links
      rw [Rendering.paymentLinks,List.filter_filter,List.filter_singleton,known] at both
      simp only [Option.map_some,beq_self_eq_true,cond_true] at both
      rw [← both]
      exact List.filter_congr fun _ _ => Bool.and_comm _ _
    unfold linkedUnit
    rw [bound]
    simp only [List.mapM_cons,List.mapM_nil,node.bound,paymentUnit]
    exact cashuUnit_sat
  obtain ⟨contract,required,_,ports⟩ := described.contract
  have written : ∀ payment, linkedPaymentBackendConfig descriptor target.implementation mountPath "sat" config =
      .ok payment → linkedSection plan config = .ok (some payment) := by
    intro payment made
    unfold linkedSection
    rw [filtered]
    simp only [bind_ok,ensure_ok]
    exact ⟨descriptor,executed,credential,credited,⟨⟩,⟨described.backendId,source⟩,"sat",unit,by rw [made]; rfl⟩
  obtain ⟨contract,required,_,ports⟩ := described.contract
  obtain is | is := node.implementation
  · have rpc : targetPort descriptor "rpc" = .ok 10009 := by
      rw [is] at required
      cases required
      rw [targetPort,require_ok,ports]
      rfl
    refine ⟨.lnd "sat" (lightningLimits config) descriptor.componentId 10009 mountPath,written _ ?_,
      fun _ => by rw [is]; rfl⟩
    rw [linkedPaymentBackendConfig,if_pos is,bind_ok]
    exact ⟨10009,rpc,rfl⟩
  · refine ⟨.cln "sat" (lightningLimits config) mountPath,written _ ?_,fun _ => by rw [is]; rfl⟩
    rw [linkedPaymentBackendConfig,if_neg (by rw [is]; decide),if_pos is]

/-! ### The sections -/

/-- What embedded BDK serves. -/
def onchainTuples (mint : ComponentSpec) : List PaymentTuple :=
  if embedsBdk mint then [(.onchain,"sat","bdk")] else []

/-- A mint is rendered with the section of its Lightning path, and with the on-chain one. -/
theorem MintPlan.rendered (accepted : AcceptedMint cell mint) {grpc : Option ProcessorTarget}
    {tuples : List PaymentTuple} (selected : grpcTarget plan = .ok grpc)
    (lightning : ∀ chain, ((embedsLdk mint || embedsBdk mint) = true → chain.isSome = true) → ∃ payment,
      lightningSection plan config grpc chain = .ok payment ∧ (payment = none → embedsBdk mint = true) ∧
        (payment.map fun payment => payment.served cell).getD [] = tuples) :
    ∃ sections, renderCdkComponent plan = .ok sections ∧ sections.served cell = tuples ++ onchainTuples mint := by
  obtain ⟨chain,chained,reached⟩ := planned.chainTarget accepted
  obtain ⟨payment,written,path,served⟩ := lightning chain reached
  obtain ⟨onchain,embedded,bdk⟩ := planned.onchain reached
  have http : plan.targetDescriptor.ports.lookup "http" = some 3338 := by
    rw [planned.ports]
    rfl
  have render : ∀ rendered, paymentSection plan config payment onchain = .ok rendered →
      renderCdkComponent plan = .ok ⟨rendered,onchain⟩ := by
    intro rendered composed
    simp only [renderCdkComponent,cdkPaymentSections,bind_ok,pure_ok,ensure_ok,require_ok,planned.effectiveConfig]
    exact ⟨⟨⟩,⟨planned.kind,planned.backendId⟩,3338,http,grpc,selected,chain,chained,payment,written,onchain,embedded,
      rendered,composed,rfl⟩
  cases payment with
  | some payment =>
    refine ⟨⟨payment,onchain⟩,render payment rfl,?_⟩
    rw [PaymentSections.served,onchainTuples,← bdk,← served]
    rfl
  | none =>
    have there : onchain.isSome = true := bdk.trans (path rfl)
    obtain ⟨onchain,rfl⟩ := Option.isSome_iff_exists.mp there
    refine ⟨⟨.none (onchainLimits config),some onchain⟩,render _ rfl,?_⟩
    rw [PaymentSections.served,onchainTuples,← bdk,← served]
    rfl

/-- The methods that a processor advertises, as a mint serves them. -/
def processorTuples (target : ComponentSpec) (advertised : List PaymentMethod) : List PaymentTuple :=
  advertised.map fun method => (method,"sat",target.implementation)

/-- A mint linked to a processor serves what that advertises. -/
theorem MintPlan.rendered_processor (accepted : AcceptedMint cell mint)
    {profile : ProcessorProfile} {advertised : List PaymentMethod} (there : target ∈ cell.components)
    (kind : target.kind = .paymentProcessor) (implementation : target.implementation = profile.implementation)
    (methods : profile.advertisedMethods target = some advertised) (linked : outgoing cell mint .paymentBackend ≠ [])
    (reached : ∀ link ∈ outgoing cell mint .paymentBackend, link.to = target.id)
    (bound : (profile.boundMethods "cdk" ((outgoing cell mint .paymentBackend).map LinkSpec.binding)).any
      (fun (_,methods) => methods == advertised) = true) :
    ∃ sections, renderCdkComponent plan = .ok sections ∧
      sections.served cell = processorTuples target advertised ++ onchainTuples mint := by
  obtain ⟨descriptor,selected,described⟩ := planned.grpc accepted.distinct there kind implementation linked reached bound
  obtain ⟨contract,required,_,ports⟩ := described.contract
  have grpc : targetPort descriptor "grpc" = .ok 50051 := by
    rw [implementation] at required
    rw [targetPort,require_ok,ports]
    cases profile with
    | ldkServer | bark | spark =>
      cases required
      rfl
  refine planned.rendered accepted selected fun chain _ => ?_
  refine ⟨some (.grpcProcessor "sat" (lightningLimits config) descriptor.componentId 50051),?_,nofun,?_⟩
  · have made : paymentBackendConfig config ⟨descriptor,profile,"sat",advertised⟩ =
        .ok (.grpcProcessor "sat" (lightningLimits config) descriptor.componentId 50051) := by
      simp only [paymentBackendConfig,bind_ok,pure_ok]
      exact ⟨50051,grpc,"sat",cashuUnit_sat,rfl⟩
    rw [lightningSection,made]
    rfl
  · have found : cell.components.find? (·.id == descriptor.componentId) = some target :=
      (find_eq_some accepted.distinct fun _ holds => eq_of_beq holds).mpr
        ⟨there,by rw [described.componentId,beq_self_eq_true]⟩
    simp only [Option.map_some,Option.getD_some,PaymentSection.served,found,
      forImplementation_eq_some.mpr implementation,methods,processorTuples]

/-- A mint linked to a node serves that. -/
theorem MintPlan.rendered_node (accepted : AcceptedMint cell mint) {link : LinkSpec}
    (node : NodeLink cell mint link target) (alone : embedsLdk mint = false) :
    ∃ sections, renderCdkComponent plan = .ok sections ∧
      sections.served cell = [(.bolt11,"sat",target.implementation)] ++ onchainTuples mint := by
  obtain ⟨payment,written,served⟩ := planned.linkedSection_node accepted.distinct node
  refine planned.rendered accepted (planned.grpc_none (node.isDirect accepted.distinct)) fun chain _ => ?_
  refine ⟨some payment,?_,nofun,served cell⟩
  rw [lightningSection,planned.ldk,alone]
  exact written

/-- What embedded LDK Node serves. -/
def ldkTuples (mint : ComponentSpec) : List PaymentTuple :=
  if embedsLdk mint then [(.bolt11,"sat","ldk-node"),(.bolt12,"sat","ldk-node")] else []

/-- A mint without payment links serves what it embeds. -/
theorem MintPlan.rendered_unlinked (accepted : AcceptedMint cell mint)
    (unlinked : outgoing cell mint .paymentBackend = []) : ∃ sections, renderCdkComponent plan = .ok sections ∧
      sections.served cell = ldkTuples mint ++ onchainTuples mint := by
  have direct : Direct cell mint := by
    rw [Direct,unlinked]
    nofun
  refine planned.rendered accepted (planned.grpc_none direct) fun chain reached => ?_
  unfold lightningSection
  rw [planned.ldk,ldkTuples]
  split_ifs with embeds
  · obtain ⟨⟨chain,rpc⟩,rfl⟩ := Option.isSome_iff_exists.mp (reached (by rw [embeds,Bool.true_or]))
    have p2p : plan.targetDescriptor.ports.lookup "p2p" = some cdkLdkP2pPort := by
      rw [planned.ports,servicePorts,planned.ldk,embeds]
      rfl
    have unit : cashuUnit config.embeddedLightningUnit = .ok "sat" := by
      rw [planned.unit,accepted.embeddedUnit embeds]
      exact cashuUnit_sat
    refine ⟨some (.ldkNode "sat" (lightningLimits config) chain.componentId rpc cdkLdkP2pPort),?_,nofun,rfl⟩
    have made : ldkPaymentBackendConfig chain rpc cdkLdkP2pPort config =
        .ok (.ldkNode "sat" (lightningLimits config) chain.componentId rpc cdkLdkP2pPort) := by
      simp only [ldkPaymentBackendConfig,bind_ok,pure_ok]
      exact ⟨"sat",unit,rfl⟩
    simp only [bind_ok,require_ok]
    exact ⟨_,rfl,_,p2p,by rw [made]; rfl⟩
  · refine ⟨none,planned.linkedSection_none unlinked,fun _ => ?_,rfl⟩
    obtain ⟨_,_,path⟩ := accepted.unclaimed
    by_contra embeds'
    exact path ⟨unlinked,Bool.eq_false_iff.mpr embeds,Bool.eq_false_iff.mpr embeds'⟩

end

end Proofstorm.Rendering
