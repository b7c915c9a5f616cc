import Proofstorm.Publication.Canonical
import Proofstorm.Publication.Databases

/-!
Plans, one for each component of an effective cell. A backend's contract says which
conditions apply to its components and which of them make one ready; a plan carries
these with the component's links, what they lead to, and the storage of linked
components that it mounts. The images, claims and probes of a plan are left out, and so
are the checks of a release's features.
-/
namespace Proofstorm.Core

/-- In their order. -/
inductive ComponentConditionType
  | workloadReady | storageReady | credentialsReady | serviceReady | protocolReady | dependenciesReady
  | componentReady | experimentControllable
  deriving DecidableEq

inductive ComponentConditionState
  | true | false | unknown
  deriving DecidableEq

def ComponentConditionType.rank : ComponentConditionType → Nat
  | .workloadReady => 0
  | .storageReady => 1
  | .credentialsReady => 2
  | .serviceReady => 3
  | .protocolReady => 4
  | .dependenciesReady => 5
  | .componentReady => 6
  | .experimentControllable => 7

/-- The links a component's plan carries: its own, plus, for a Spark processor, its
    SSP's operator link. The processor links only to the SSP but talks to that SSP's
    operators directly. -/
def CellSpec.planLinks (cell : CellSpec) (componentId : String) : List LinkSpec :=
  let links := cell.links.filter (·.from == componentId)
  if cell.components.any fun component =>
      component.id == componentId && component.implementation == Validation.sparkProcessor then
    let ssps := (links.filter (·.kind == .sparkBackend)).map LinkSpec.to
    links ++ cell.links.filter fun link => link.kind == .sparkBackend && ssps.contains link.from
  else links

end Proofstorm.Core

namespace Proofstorm.Plans
open Proofstorm.Core Validation Publication

/-! ### Contracts -/

def serviceConditions (hasDependencies hasCredentialProjection : Bool) : List ComponentConditionType :=
  [.workloadReady,.storageReady] ++ (if hasCredentialProjection then [.credentialsReady] else []) ++
    [.serviceReady,.protocolReady] ++ (if hasDependencies then [.dependenciesReady] else []) ++
    [.componentReady,.experimentControllable]

/-- `conditions.remove(StorageReady)`. -/
def ephemeral (conditions : List ComponentConditionType) : List ComponentConditionType :=
  conditions.filter (· ≠ .storageReady)

def walletConditions : List ComponentConditionType :=
  [.workloadReady,.storageReady,.componentReady,.experimentControllable]

/-- The `applicable_conditions` of the installed contracts. -/
def applicableConditions (backend : String) : List ComponentConditionType :=
  if backend ∈ ["bitcoin-core","postgresql"] then serviceConditions false false
  else if backend ∈ ["lnd","cln","ldk-server",barkProcessor,barkServer,clnHold,sparkProcessor] then
    serviceConditions true false
  else if backend ∈ ["cdk","nutshell",openSsp] then serviceConditions true true
  else if backend = "redis" then ephemeral (serviceConditions false false)
  else if backend = "keycloak" then ephemeral (serviceConditions false true)
  else if backend = ldkProcessor then ephemeral (serviceConditions true true)
  else if backend = sparkOperators then ephemeral (serviceConditions true false)
  else walletConditions

structure ConditionAggregationContract where
  condition : ComponentConditionType
  allOf : List ComponentConditionType
  deriving DecidableEq

def defaultConditionAggregation (applicable : List ComponentConditionType) : List ConditionAggregationContract :=
  [⟨.componentReady,[.workloadReady,.storageReady,.serviceReady,.protocolReady,.dependenciesReady].filter
    applicable.contains⟩]

/-- Whether the components of a backend wait for what they are linked to. -/
def waitsFor (backend : String) : Bool := (applicableConditions backend).contains .dependenciesReady

theorem applicableConditions_cases (backend : String) :
    ∃ storage credentials service dependencies : Bool, applicableConditions backend =
      [.workloadReady] ++ (if storage then [.storageReady] else []) ++
        (if credentials then [.credentialsReady] else []) ++ (if service then [.serviceReady,.protocolReady] else []) ++
        (if dependencies then [.dependenciesReady] else []) ++ [.componentReady,.experimentControllable] := by
  unfold applicableConditions
  split_ifs
  · exact ⟨true,false,true,false,rfl⟩
  · exact ⟨true,false,true,true,rfl⟩
  · exact ⟨true,true,true,true,rfl⟩
  · exact ⟨false,false,true,false,rfl⟩
  · exact ⟨false,true,true,false,rfl⟩
  · exact ⟨false,true,true,true,rfl⟩
  · exact ⟨false,false,true,true,rfl⟩
  · exact ⟨true,false,false,false,rfl⟩

/-! ### Configurations -/

/-- What the payment sections of a mint are written from. -/
structure CdkMintConfig where
  minMint : Nat
  maxMint : Nat
  minMelt : Nat
  maxMelt : Nat
  embedsLdk : Bool
  embeddedLightningUnit : String
  embedsBdk : Bool
  onchainMinMintSat : Nat
  onchainMaxMintSat : Nat
  onchainMinMeltSat : Nat
  onchainMaxMeltSat : Nat
  deriving DecidableEq

/-- Embedded backends are reached through the Bitcoin chain link. -/
def CdkMintConfig.needsChainBackend (config : CdkMintConfig) : Bool := config.embedsLdk || config.embedsBdk

/-- The typed configurations of other backends are not read here. -/
inductive EffectiveComponentConfig
  | cdk (config : CdkMintConfig)
  | other
  deriving DecidableEq

def typedConfigError (component : ComponentSpec) (name : String) : String :=
  s!"backend_typed_config_invalid: component {quoted component.id} field /config/{name} was not normalized to its declared native type"

/-- A setting in its native type. -/
def typed {α : Type} (component : ComponentSpec) (name : String) (read : Json → Option α) : Except String α :=
  require ((component.get name).bind read) (typedConfigError component name)

/-- Whether an enumerated setting has its second value. -/
def chosen (first second : String) (value : Json) : Option Bool :=
  match value.asStr with
  | some text => if text = first then some false else if text = second then some true else none
  | none => none

def cdkMintConfig (component : ComponentSpec) : Except String CdkMintConfig := do
  let minMint ← typed component "min_mint" Json.asU64
  let maxMint ← typed component "max_mint" Json.asU64
  let minMelt ← typed component "min_melt" Json.asU64
  let maxMelt ← typed component "max_melt" Json.asU64
  let embedsLdk ← typed component "embedded_lightning" (chosen "none" "ldk-node")
  let embeddedLightningUnit ← typed component "embedded_lightning_unit" Json.asStr
  let embedsBdk ← typed component "embedded_onchain" (chosen "none" "bdk")
  let onchainMinMintSat ← typed component "onchain_min_mint_sat" Json.asU64
  let onchainMaxMintSat ← typed component "onchain_max_mint_sat" Json.asU64
  let onchainMinMeltSat ← typed component "onchain_min_melt_sat" Json.asU64
  let onchainMaxMeltSat ← typed component "onchain_max_melt_sat" Json.asU64
  return {
    minMint, maxMint, minMelt, maxMelt, embedsLdk, embeddedLightningUnit, embedsBdk, onchainMinMintSat,
    onchainMaxMintSat, onchainMinMeltSat, onchainMaxMeltSat }

def EffectiveComponentConfig.tryFromComponent (component : ComponentSpec) : Except String EffectiveComponentConfig :=
  if component.implementation = "cdk" then (cdkMintConfig component).map .cdk else .ok .other

def cdkLdkP2pPort : Nat := 9735

/-- Embedded LDK Node is the only CDK path that listens for Lightning peers. The port
    that a workspace chooses is left out. -/
def servicePorts (backend : BackendContract) : EffectiveComponentConfig → List (String × Nat)
  | .cdk config => [("http",3338)] ++ if config.embedsLdk then [("p2p",cdkLdkP2pPort)] else []
  | .other => backend.servicePorts

/-! ### Mounts -/

structure TargetDescriptorContract where
  componentId : String
  kind : ComponentKind
  backendId : String
  version : String
  ports : List (String × Nat)
  deriving DecidableEq

inductive ExecutionStorageSource
  | statefulData | componentPersistentData | componentConfig
  | linkedStatefulData (linkId : String)
  deriving DecidableEq

structure ExecutionMountContract where
  name : String
  mountPath : String
  readOnly : Bool
  source : ExecutionStorageSource
  deriving DecidableEq

/-- What a plan records of the storage it mounts from a linked component. -/
structure CredentialObservationContract where
  sourceComponentId : String
  sourceStateContract : String
  mountName : String
  mountPath : String
  readOnly : Bool
  deriving DecidableEq

/-- `{binding:?}`. -/
def bindingDebug : DependencyBinding → String
  | .chain .regtest => "Chain \x7b network: Regtest \x7d"
  | .ark .regtest => "Ark \x7b network: Regtest \x7d"
  | .spark .regtest => "Spark \x7b network: Regtest \x7d"
  | .payment method unit => "Payment \x7b method: " ++ method.debug ++ ", unit: " ++ quoted unit ++ " \x7d"
  | .database role database =>
    "Database \x7b role: " ++
      (match role with | .primary => "Primary" | .cache => "Cache" | .authentication => "Authentication") ++
      ", database: " ++
      (match database with | none => "None" | some name => "Some(" ++ quoted name ++ ")") ++ " \x7d"
  | .authentication .oidc => "Authentication \x7b protocol: Oidc \x7d"

section
variable (componentId : String) (links : List LinkSpec) (targets : List (String × TargetDescriptorContract))
  (embeddedPayment : Bool)

/-- The descriptor of what a link leads to, by the link's id. -/
def targetOf (targets : List (String × TargetDescriptorContract)) (link : LinkSpec) :
    Option TargetDescriptorContract := targets.lookup link.id

def inPaymentGroup (mount : ExecutionMount) : Bool := mount.requirement == .atLeastOne "payment-backend"

/-- A network processor supplies its own transport credentials. Native LND/CLN data
    mounts are only applicable to direct node bindings. -/
def inapplicable (mount : ExecutionMount) : Bool :=
  inPaymentGroup mount &&
    links.any fun link => link.kind == .paymentBackend && (targetOf targets link).any (·.kind == .paymentProcessor)

/-- An embedded CDK backend already provides a payment path, so linked Lightning data
    becomes optional rather than required. -/
def optionalMount (mount : ExecutionMount) : Bool := embeddedPayment && inPaymentGroup mount

/-- The links whose storage a mount may be of. -/
def mountLinks (kind : LinkKind) (binding : DependencyBinding) (implementation : String) : List LinkSpec :=
  links.filter fun link => link.kind == kind && link.binding == some binding &&
    (targetOf targets link).any (·.backendId == implementation)

def resolveMount (mount : ExecutionMount) : Except String (Option ExecutionMountContract) :=
  if inapplicable links targets mount then .ok none
  else
    let resolved := fun source => Except.ok (some ⟨mount.name,mount.mountPath,mount.readOnly,source⟩)
    match mount.source with
    | .statefulData => resolved .statefulData
    | .componentPersistentData => resolved .componentPersistentData
    | .componentConfig => resolved .componentConfig
    | .linkedStatefulData kind binding implementation =>
      match mountLinks links targets kind binding implementation with
      | [link] => resolved (.linkedStatefulData link.id)
      | [] =>
        match mount.requirement with
        | .atLeastOne _ => .ok none
        | .required =>
          .error s!"backend_execution_binding_missing: component {quoted componentId} mount {quoted mount.name} requires one {kind.name} binding matching {bindingDebug binding} through implementation {quoted implementation}"
      | found =>
        .error s!"backend_execution_binding_ambiguous: component {quoted componentId} mount {quoted mount.name} requires one {kind.name} binding matching {bindingDebug binding} through implementation {quoted implementation}, found [{listed (found.map fun link => quoted link.id)}]"

/-- The groups that at least one mount must be resolved of, in their order. -/
def requiredGroups (mounts : List ExecutionMount) : List String :=
  ((mounts.filter fun mount => !inapplicable links targets mount && !optionalMount embeddedPayment mount).filterMap
    fun mount => match mount.requirement with
      | .atLeastOne group => some group
      | .required => none).insertionSort (· ≤ ·)

/-- Whether a mount of a group was resolved. -/
def groupResolved (mounts : List ExecutionMount) (resolved : List (Option ExecutionMountContract)) (group : String) :
    Bool :=
  (mounts.zip resolved).any fun (mount,contract) => mount.requirement == .atLeastOne group && contract.isSome

def resolveExecutionMounts (mounts : List ExecutionMount) : Except String (List ExecutionMountContract) := do
  let resolved ← mounts.mapM (resolveMount componentId links targets)
  match (requiredGroups links targets embeddedPayment mounts).find? fun group => !groupResolved mounts resolved group with
  | some group =>
    .error s!"backend_execution_binding_group_missing: component {quoted componentId} requires at least one resolved execution mount in group {quoted group}"
  | none => .ok (resolved.filterMap id)

/-- The storage that a mount takes from a linked component. That its backend keeps
    exactly one claim is checked here too, and left out. -/
def compileCredential (states : List (String × String × String)) (mount : ExecutionMountContract) :
    Except String (Option CredentialObservationContract) :=
  match mount.source with
  | .linkedStatefulData linkId => do
    let (source,stateContract) ← require (states.lookup linkId)
      s!"backend_link_state_missing: component {quoted componentId} binding {quoted linkId} has no state observation contract"
    return some ⟨source,stateContract,mount.name,mount.mountPath,mount.readOnly⟩
  | _ => .ok none

end

/-! ### Plans -/

inductive AdapterError
  | missingLock (component : String)
  | missingLink (component : String) (link : LinkKind)
  | missingTarget (component target : String)
  | invalidPlan (diagnostic : String)
  deriving DecidableEq

structure ComponentPlanContract where
  revisionDigest : String
  backendId : String
  componentId : String
  kind : ComponentKind
  rolloutDigest : String
  effectiveConfig : EffectiveComponentConfig
  relevantLinks : List LinkSpec
  /-- By the id of the link. -/
  linkedTargets : List (String × TargetDescriptorContract)
  mounts : List ExecutionMountContract
  targetDescriptor : TargetDescriptorContract
  credentials : List CredentialObservationContract
  applicableConditions : List ComponentConditionType
  conditionAggregation : List ConditionAggregationContract
  deriving DecidableEq

/-- Whether a plan's component waits for those it is linked to. -/
def ComponentPlanContract.dependent (plan : ComponentPlanContract) : Bool :=
  plan.applicableConditions.contains .dependenciesReady

/-- `map_err(AdapterError::InvalidPlan)`. -/
def invalidPlan {α : Type} : Except String α → Except AdapterError α
  | .ok value => .ok value
  | .error diagnostic => .error (.invalidPlan diagnostic)

@[simp] theorem invalidPlan_ok {α : Type} {result : Except String α} {value : α} :
    invalidPlan result = .ok value ↔ result = .ok value := by
  cases result <;> simp [invalidPlan]

/-- What a plan is compiled from. -/
structure ComponentPlanInput where
  revisionDigest : String
  component : ComponentSpec
  lock : Publication.LockEntry
  relevantLinks : List LinkSpec
  linkedTargets : List (String × TargetDescriptorContract)
  /-- By the id of the link: the component it leads to, and the contract of its state. -/
  linkedState : List (String × String × String)

def sortLinks (links : List LinkSpec) : List LinkSpec := links.insertionSort fun a b => linkKey a ≤ linkKey b

def compileContract (input : ComponentPlanInput) : Except String ComponentPlanContract := do
  let backend ← defaultRegistry.require input.lock.catalogId
  ensure (backend.kind = input.component.kind)
    s!"backend_kind_mismatch: component {quoted input.component.id} kind {input.component.kind.name} does not match backend {quoted backend.id} kind {backend.kind.name}"
  ensure (input.component.id = input.lock.componentId)
    s!"backend_lock_mismatch: component {quoted input.component.id} does not match lock component {quoted input.lock.componentId}"
  ensure (input.lock.configVersion = backend.configVersion)
    s!"backend_lock_config_version_mismatch: component {quoted input.component.id} lock config version {quoted input.lock.configVersion} does not match installed backend {quoted backend.id} config version {quoted backend.configVersion}"
  let effective ← defaultRegistry.resolveEffectiveComponent input.component
  let effectiveConfig ← EffectiveComponentConfig.tryFromComponent effective
  let embeddedPayment := match effectiveConfig with
    | .cdk config => config.needsChainBackend
    | .other => false
  let links := sortLinks input.relevantLinks
  let mounts ← resolveExecutionMounts input.component.id links input.linkedTargets embeddedPayment
    backend.executionMounts
  let credentials ← mounts.mapM (compileCredential input.component.id input.linkedState)
  return {
    revisionDigest := input.revisionDigest
    backendId := backend.id
    componentId := input.component.id
    kind := input.component.kind
    rolloutDigest := input.lock.rolloutDigest
    effectiveConfig
    relevantLinks := links
    linkedTargets := input.linkedTargets
    mounts
    targetDescriptor := ⟨input.component.id,input.component.kind,input.lock.catalogId,input.lock.version,
      servicePorts backend effectiveConfig⟩
    credentials := credentials.filterMap id
    applicableConditions := Plans.applicableConditions backend.id
    conditionAggregation := defaultConditionAggregation (Plans.applicableConditions backend.id) }

/-- What one link of a component leads to. -/
def linkedTarget (cell : CellSpec) (lock : Publication.ResolvedLock) (component : ComponentSpec) (link : LinkSpec) :
    Except AdapterError (TargetDescriptorContract × String) := do
  let target ← require (cell.components.find? (·.id == link.to)) (.missingTarget component.id link.to)
  let targetLock ← require (lock.entries.find? (·.componentId == target.id)) (.missingLock target.id)
  let backend ← invalidPlan (defaultRegistry.require targetLock.catalogId)
  return (⟨target.id,target.kind,targetLock.catalogId,targetLock.version,backend.servicePorts⟩,
    backend.executionStateContract)

def compileComponentPlan (revisionDigest : String) (cell : CellSpec) (lock : Publication.ResolvedLock)
    (component : ComponentSpec) : Except AdapterError ComponentPlanContract := do
  let entry ← require (lock.entries.find? (·.componentId == component.id)) (.missingLock component.id)
  let links := cell.planLinks component.id
  let targets ← links.mapM (linkedTarget cell lock component)
  let named := links.zip targets
  invalidPlan (compileContract {
    revisionDigest
    component
    lock := entry
    relevantLinks := links
    linkedTargets := named.map fun (link,target,_) => (link.id,target)
    linkedState := named.map fun (link,target,stateContract) => (link.id,target.componentId,stateContract) })

/-- Compile one immutable, cluster-free plan per effective cell component. -/
def compileComponentPlans (revisionDigest : String) (cell : CellSpec) (lock : Publication.ResolvedLock) :
    Except AdapterError (List ComponentPlanContract) := do
  let plans ← cell.components.mapM (compileComponentPlan revisionDigest cell lock)
  return plans.insertionSort fun a b => a.componentId ≤ b.componentId

end Proofstorm.Plans
