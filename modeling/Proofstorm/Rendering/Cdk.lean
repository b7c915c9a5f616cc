import Proofstorm.Plans.Published

/-!
The payment sections of a CDK mint's configuration: at most one Lightning path, which is
a linked processor, a linked node or the embedded LDK Node, and embedded BDK on chain
where it is enabled. What else is rendered for the mint (its databases, authentication,
mounts and init containers) is left out.
-/
namespace Proofstorm.Rendering
open Proofstorm.Core Validation Publication Plans

/-! ### Sections -/

/-- The quote limits of a section, in its unit. -/
structure Limits where
  minMint : Nat
  maxMint : Nat
  minMelt : Nat
  maxMelt : Nat
  deriving DecidableEq

/-- What the payment and on-chain sections are written from, besides the limits. -/
inductive PaymentSection
  | grpcProcessor (unit : String) (limits : Limits) (address : String) (port : Nat)
  | lnd (unit : String) (limits : Limits) (address : String) (port : Nat) (mountPath : String)
  | cln (unit : String) (limits : Limits) (mountPath : String)
  | ldkNode (unit : String) (limits : Limits) (chain : String) (chainRpc p2pPort : Nat)
  | none (limits : Limits)
  deriving DecidableEq

structure OnchainSection where
  limits : Limits
  minReceiveAmountSat : Nat
  chain : String
  chainRpc : Nat
  deriving DecidableEq

/-- The sections of one mint. -/
structure PaymentSections where
  payment : PaymentSection
  onchain : Option OnchainSection
  deriving DecidableEq

def lightningLimits (config : CdkMintConfig) : Limits := ⟨config.minMint,config.maxMint,config.minMelt,config.maxMelt⟩

def onchainLimits (config : CdkMintConfig) : Limits :=
  ⟨config.onchainMinMintSat,config.onchainMaxMintSat,config.onchainMinMeltSat,config.onchainMaxMeltSat⟩

/-! ### What a plan is asked for -/

def planLinkedTarget (plan : ComponentPlanContract) (kind : LinkKind) :
    Except Plans.AdapterError TargetDescriptorContract :=
  match plan.relevantLinks.filter fun link => link.kind == kind && link.from == plan.componentId with
  | [] => .error (.missingLink plan.componentId kind)
  | [link] => require (targetOf plan.linkedTargets link) (.missingTarget plan.componentId link.to)
  | links =>
    .error (.invalidPlan s!"component {quoted plan.componentId} has ambiguous {kind.name} bindings [{listed (links.map fun link => quoted link.id)}]; the backend must select a named binding")

def planExecutionTarget (plan : ComponentPlanContract) (mountName : String) :
    Except Plans.AdapterError TargetDescriptorContract := do
  let mount ← require (plan.mounts.find? (·.name == mountName))
    (.invalidPlan s!"component {quoted plan.componentId} lacks execution mount {quoted mountName}")
  match mount.source with
  | .linkedStatefulData linkId => do
    let link ← require (plan.relevantLinks.find? fun link => link.id == linkId && link.from == plan.componentId)
      (.invalidPlan s!"component {quoted plan.componentId} lacks resolved execution binding {quoted linkId}")
    require (plan.linkedTargets.lookup linkId) (.missingTarget plan.componentId link.to)
  | _ =>
    .error (.invalidPlan s!"component {quoted plan.componentId} execution mount {quoted mountName} is not linked to a resolved binding")

def planExecutionCredential (plan : ComponentPlanContract) (mountName : String) :
    Except Plans.AdapterError CredentialObservationContract :=
  match plan.credentials.filter (·.mountName == mountName) with
  | [credential] => .ok credential
  | credentials =>
    .error (.invalidPlan s!"component {quoted plan.componentId} execution mount {quoted mountName} requires exactly one compiled credential, found {credentials.length}")

def targetPort (target : TargetDescriptorContract) (name : String) : Except Plans.AdapterError Nat :=
  require (target.ports.lookup name)
    (.invalidPlan s!"target {quoted target.componentId} has no {quoted name} service port")

/-- Recheck a unit before it is written into native TOML. -/
def cashuUnit (unit : String) : Except Plans.AdapterError String :=
  if isCashuUnit unit then .ok unit
  else .error (.invalidPlan s!"payment unit {quoted unit} is not a Cashu unit identifier")

/-- The unit of a payment binding. -/
def paymentUnit : Option DependencyBinding → Option String
  | some (.payment _ unit) => some unit
  | _ => none

/-- The one unit a mint's payment links bind to a linked backend. -/
def linkedUnit (plan : ComponentPlanContract) (target : TargetDescriptorContract) : Except Plans.AdapterError String :=
  let links := plan.relevantLinks.filter fun link => link.kind == .paymentBackend &&
    ((targetOf plan.linkedTargets link).map TargetDescriptorContract.componentId) == some target.componentId
  match (links.mapM fun link => paymentUnit link.binding).map List.dedup with
  | some [unit] => cashuUnit unit
  | _ =>
    .error (.invalidPlan s!"component {quoted plan.componentId} requires one payment unit for backend {quoted target.componentId}")

/-! ### Processors -/

/-- A validated processor dependency and the method set its links bind. -/
structure ProcessorTarget where
  descriptor : TargetDescriptorContract
  profile : ProcessorProfile
  unit : String
  methods : List PaymentMethod
  deriving DecidableEq

def paymentLinks (plan : ComponentPlanContract) : List LinkSpec :=
  plan.relevantLinks.filter (·.kind == .paymentBackend)

def paymentTarget (plan : ComponentPlanContract) (profile : ProcessorProfile) (implementation : String)
    (kind : ComponentKind) : Except Plans.AdapterError ProcessorTarget :=
  let links := paymentLinks plan
  let invalid := Plans.AdapterError.invalidPlan
    s!"component {quoted plan.componentId} requires {profile.bindingDescription plan.backendId} bindings to one {implementation}"
  match profile.boundMethods plan.backendId (links.map LinkSpec.binding),
      links.head?.bind (targetOf plan.linkedTargets) with
  | some (unit,methods), some target =>
    if target.backendId = implementation ∧ target.kind = kind ∧
        links.all (fun link => link.from == plan.componentId && link.to == target.componentId &&
          targetOf plan.linkedTargets link == some target) then
      .ok ⟨target,profile,unit,methods⟩
    else .error invalid
  | _, _ => .error invalid

/-- The processor a mint's payment links select, if any. -/
def grpcTarget (plan : ComponentPlanContract) : Except Plans.AdapterError (Option ProcessorTarget) :=
  match (paymentLinks plan).findSome? fun link => (targetOf plan.linkedTargets link).filter fun target =>
      target.kind == .paymentProcessor || (ProcessorProfile.forImplementation target.backendId).isSome with
  | none => .ok none
  | some target => do
    let profile ← require (ProcessorProfile.forImplementation target.backendId)
      (.invalidPlan s!"unsupported payment processor implementation {quoted target.backendId}")
    some <$> paymentTarget plan profile profile.implementation .paymentProcessor

/-! ### The configuration -/

def paymentBackendConfig (config : CdkMintConfig) (processor : ProcessorTarget) :
    Except Plans.AdapterError PaymentSection := do
  let port ← targetPort processor.descriptor "grpc"
  let unit ← cashuUnit processor.unit
  return .grpcProcessor unit (lightningLimits config) processor.descriptor.componentId port

def ldkPaymentBackendConfig (chain : TargetDescriptorContract) (chainRpc p2pPort : Nat) (config : CdkMintConfig) :
    Except Plans.AdapterError PaymentSection := do
  let unit ← cashuUnit config.embeddedLightningUnit
  return .ldkNode unit (lightningLimits config) chain.componentId chainRpc p2pPort

def linkedPaymentBackendConfig (lightning : TargetDescriptorContract) (mountName mountPath unit : String)
    (config : CdkMintConfig) : Except Plans.AdapterError PaymentSection :=
  if mountName = "lnd" then do
    let rpc ← targetPort lightning "rpc"
    return .lnd unit (lightningLimits config) lightning.componentId rpc mountPath
  else if mountName = "cln" then .ok (.cln unit (lightningLimits config) mountPath)
  else .error (.invalidPlan s!"CDK payment backend {quoted mountName} has no configuration renderer")

/-- The section of a node that the mint is linked to, if its plan mounts one. -/
def linkedSection (plan : ComponentPlanContract) (config : CdkMintConfig) :
    Except Plans.AdapterError (Option PaymentSection) :=
  match plan.mounts.filter fun mount => mount.name == "lnd" || mount.name == "cln" with
  | [] => .ok none
  | [mount] => do
    let lightning ← planExecutionTarget plan mount.name
    let credential ← planExecutionCredential plan mount.name
    ensure (lightning.backendId = mount.name ∧ credential.sourceComponentId = lightning.componentId)
      (.invalidPlan s!"component {quoted plan.componentId} compiled payment target and credential identities disagree")
    let unit ← linkedUnit plan lightning
    some <$> linkedPaymentBackendConfig lightning mount.name mount.mountPath unit config
  | mounts =>
    .error (.invalidPlan s!"cdk_simultaneous_payment_backends_not_supported: component {quoted plan.componentId} requires at most one compiled native payment backend, found [{listed (mounts.map fun mount => quoted mount.name)}]")

/-- The chain that embedded backends are reached through. -/
def chainTarget (plan : ComponentPlanContract) (config : CdkMintConfig) :
    Except Plans.AdapterError (Option (TargetDescriptorContract × Nat)) :=
  if config.needsChainBackend then do
    let chain ← planLinkedTarget plan .chainBackend
    let rpc ← targetPort chain "rpc"
    return some (chain,rpc)
  else .ok none

/-- Sections compose: at most one Lightning path (linked processor, linked node or
    embedded LDK), plus embedded BDK on-chain when enabled. -/
def lightningSection (plan : ComponentPlanContract) (config : CdkMintConfig) (grpc : Option ProcessorTarget)
    (chain : Option (TargetDescriptorContract × Nat)) : Except Plans.AdapterError (Option PaymentSection) :=
  match grpc with
  | some processor => some <$> paymentBackendConfig config processor
  | none =>
    if config.embedsLdk then do
      let (target,rpc) ← require chain (.invalidPlan "embedded LDK Node requires a chain backend")
      let p2pPort ← require (plan.targetDescriptor.ports.lookup "p2p")
        (.invalidPlan "embedded LDK Node has no P2P service port")
      some <$> ldkPaymentBackendConfig target rpc p2pPort config
    else linkedSection plan config

def onchainSection (config : CdkMintConfig) (chain : Option (TargetDescriptorContract × Nat)) :
    Except Plans.AdapterError (Option OnchainSection) :=
  if config.embedsBdk then do
    let (target,rpc) ← require chain (.invalidPlan "embedded BDK requires a chain backend")
    return some ⟨onchainLimits config,config.onchainMinMintSat,target.componentId,rpc⟩
  else .ok none

/-- CDK requires a payment_backend table; on-chain only mints declare none. -/
def paymentSection (plan : ComponentPlanContract) (config : CdkMintConfig) (lightning : Option PaymentSection)
    (onchain : Option OnchainSection) : Except Plans.AdapterError PaymentSection :=
  match lightning, onchain with
  | some lightning, _ => .ok lightning
  | none, some _ => .ok (.none (onchainLimits config))
  | none, none =>
    .error (.invalidPlan s!"component {quoted plan.componentId} has no linked or embedded payment backend")

/-- The payment part of `cdk_runtime_resources`. -/
def cdkPaymentSections (plan : ComponentPlanContract) (config : CdkMintConfig) :
    Except Plans.AdapterError PaymentSections := do
  let grpc ← grpcTarget plan
  let chain ← chainTarget plan config
  let lightning ← lightningSection plan config grpc chain
  let onchain ← onchainSection config chain
  let payment ← paymentSection plan config lightning onchain
  return ⟨payment,onchain⟩

/-- `render_cdk_component`, as far as it comes to the payment sections. -/
def renderCdkComponent (plan : ComponentPlanContract) : Except Plans.AdapterError PaymentSections := do
  ensure (plan.kind = .mint ∧ plan.backendId = "cdk")
    (.invalidPlan s!"backend {quoted plan.backendId} with kind {plan.kind.name} is not a CDK mint runtime")
  let _ ← require (plan.targetDescriptor.ports.lookup "http") (.invalidPlan "cdk has no HTTP service port")
  match plan.effectiveConfig with
  | .cdk config => cdkPaymentSections plan config
  | .other => .error (.invalidPlan "CDK plan does not carry its matching typed mint configuration")

/-! ### What a mint serves -/

/-- A method in a unit through a backend. -/
abbrev PaymentTuple : Type := PaymentMethod × String × String

/-- What CDK serves from a payment section. Of a processor it registers every method
    that the processor at the address advertises. -/
def PaymentSection.served (cell : CellSpec) : PaymentSection → List PaymentTuple
  | .grpcProcessor unit _ address _ =>
    match cell.components.find? (·.id == address) with
    | some processor =>
      match ProcessorProfile.forImplementation processor.implementation with
      | some profile =>
        ((profile.advertisedMethods processor).getD []).map fun method => (method,unit,processor.implementation)
      | .none => []
    | .none => []
  | .lnd unit _ _ _ _ => [(.bolt11,unit,"lnd")]
  -- CLN offers are turned off.
  | .cln unit _ _ => [(.bolt11,unit,"cln")]
  | .ldkNode unit _ _ _ _ => [(.bolt11,unit,"ldk-node"),(.bolt12,unit,"ldk-node")]
  | .none _ => []

/-- Upstream mintd always registers BDK on-chain in sat. -/
def PaymentSections.served (cell : CellSpec) (sections : PaymentSections) : List PaymentTuple :=
  sections.payment.served cell ++ if sections.onchain.isSome then [(.onchain,"sat","bdk")] else []

/-- What the payment links of a mint bind, with the implementation they reach. -/
def linkedTuples (cell : CellSpec) (component : ComponentSpec) : List PaymentTuple :=
  (outgoing cell component .paymentBackend).filterMap fun link =>
    match link.binding, cell.components.find? (·.id == link.to) with
    | some (.payment method unit), some target => some (method,unit,target.implementation)
    | _, _ => none

/-- What a mint is accepted with. -/
def acceptedTuples (cell : CellSpec) (component : ComponentSpec) : List PaymentTuple :=
  linkedTuples cell component ++ embeddedPaymentTuples component

end Proofstorm.Rendering
