import Proofstorm.Authoring.Stack
import Mathlib.Data.List.Sort
import Mathlib.Data.Prod.Lex
import Mathlib.Data.String.Basic

/-!
Authentication and payments: the provider and the databases a mint signs its
users in with, the methods that a payment processor advertises and its mint must
bind, and the payment paths that a CDK mint is linked to or embeds.
-/
namespace Proofstorm.Core

/-- The method name as CDK registers it and processors advertise it. -/
def PaymentMethod.asStr : PaymentMethod → String
  | .bolt11 => "bolt11"
  | .bolt12 => "bolt12"
  | .onchain => "onchain"
  | .custom name => name

/-- `{method:?}`. -/
def PaymentMethod.debug : PaymentMethod → String
  | .bolt11 => "Bolt11"
  | .bolt12 => "Bolt12"
  | .onchain => "Onchain"
  | .custom name => s!"Custom({Validation.quoted name})"

/-- The place of a method in the order of the enumeration, and its custom name. -/
def PaymentMethod.rank : PaymentMethod → Nat × String
  | .bolt11 => (0,"")
  | .bolt12 => (1,"")
  | .onchain => (2,"")
  | .custom name => (3,name)

/-- `FromStr`: the canonical lowercase names CDK uses as URL path segments. -/
def PaymentMethod.parse (value : String) : Option PaymentMethod :=
  if value = "bolt11" then some .bolt11
  else if value = "bolt12" then some .bolt12
  else if value = "onchain" then some .onchain
  else if !value.toList.isEmpty && value.utf8ByteSize ≤ 53 &&
      value.toList.all fun c => Validation.isLowercase c || c.isDigit || c == '-' || c == '_' then
    some (.custom value)
  else none

end Proofstorm.Core

namespace Proofstorm.Validation
open Proofstorm.Core

/-! ### Authentication -/

def validateKeycloak (cell : CellSpec) (index : Nat) (component : ComponentSpec) : List ValidationIssue :=
  issue (component.implementation = "keycloak" ∧
      ((outgoing cell component .databaseBackend).filter fun link => link.binding.any (·.binds .primary)).length ≠ 1)
    "keycloak_primary_database_required" s!"/components/{index}"
    "Keycloak requires exactly one primary PostgreSQL dependency"

/-- Nutshell's authored OIDC settings, where it is linked to a provider. -/
def validateNutshellOidc (index : Nat) (component : ComponentSpec) : List ValidationIssue :=
  issue (((component.get "oidc_discovery_url").bind Json.asStr).any (· ≠ "")) "ambiguous_oidc_discovery"
    s!"/components/{index}/config/oidc_discovery_url"
    "linked authentication derives the discovery URL; remove the authored URL" ++
  issue (((component.get "oidc_client_id").bind Json.asStr).any (· ≠ "cashu-client")) "linked_oidc_client_mismatch"
    s!"/components/{index}/config/oidc_client_id"
    "the in-cell Keycloak contract uses the fixed public client cashu-client"

def validateAuthentication (cell : CellSpec) (index : Nat) (component : ComponentSpec) : List ValidationIssue :=
  let providers := (outgoing cell component .authenticationBackend).length
  let database := cell.links.any fun link => link.from == component.id && link.binding.any (·.binds .authentication)
  validateKeycloak cell index component ++
  if component.kind ≠ .mint then []
  else
    issue (1 < providers) "duplicate_authentication_provider" s!"/components/{index}"
      "a mint accepts at most one authentication provider" ++
    issue (database && providers == 0) "authentication_database_without_provider" s!"/components/{index}"
      "an authentication database is only used with an authentication_backend link" ++
    if component.implementation ≠ "nutshell" ∨ providers = 0 then [] else validateNutshellOidc index component

def validateAuthenticationTopology (cell : CellSpec) : List ValidationIssue :=
  enumerate (validateAuthentication cell) cell.components

/-! ### Processor profiles -/

inductive ProcessorProfile
  | ldkServer | bark | spark
  deriving DecidableEq

namespace ProcessorProfile

def forImplementation (implementation : String) : Option ProcessorProfile :=
  if implementation = ldkProcessor then some .ldkServer
  else if implementation = barkProcessor then some .bark
  else if implementation = sparkProcessor then some .spark
  else none

def implementation : ProcessorProfile → String
  | .ldkServer => ldkProcessor
  | .bark => barkProcessor
  | .spark => sparkProcessor

/-- Every method the native processor can advertise, in the order of the set. -/
def supportedMethods : ProcessorProfile → List PaymentMethod
  | .ldkServer => [.bolt11,.bolt12]
  | .bark => [.bolt11,.onchain,.custom "arkoor"]
  | .spark => [.bolt11]

/-- Whether a component selects its advertised subset through `payment_methods`. -/
def configurable : ProcessorProfile → Bool
  | .bark => true
  | _ => false

/-- Units the `client` implementation may bind. -/
def bindingUnits (profile : ProcessorProfile) (client : String) : List String :=
  if profile = .ldkServer ∧ client = "nutshell" then ["msat","sat"] else ["sat"]

def bindingDescription (profile : ProcessorProfile) (client : String) : String :=
  let units := " or ".intercalate (profile.bindingUnits client)
  match profile with
  | .ldkServer => s!"bolt11 and bolt12 bindings in one unit ({units})"
  | .bark => s!"one {units} binding for each method in the processor's payment_methods"
  | .spark => s!"one bolt11 binding in {units}"

end ProcessorProfile

/-- A set of methods, in order and each once. -/
def methodSet (methods : List PaymentMethod) : List PaymentMethod :=
  (methods.insertionSort fun a b => toLex a.rank ≤ toLex b.rank).dedup

namespace ProcessorProfile

/-- A non-empty subset this processor can advertise; fixed profiles require all. -/
def acceptsMethods (profile : ProcessorProfile) (methods : List PaymentMethod) : Bool :=
  !methods.isEmpty && methods.all profile.supportedMethods.contains &&
    (profile.configurable || methods == profile.supportedMethods)

/-- The set a component advertises, or nothing for an invalid selection. An omitted
    selection advertises everything. -/
def advertisedMethods (profile : ProcessorProfile) (component : ComponentSpec) : Option (List PaymentMethod) :=
  match (component.get "payment_methods").filter fun _ => profile.configurable with
  | none => some profile.supportedMethods
  | some value => do
    let items ← value.asArray
    let methods ← items.mapM fun item => item.asStr.bind PaymentMethod.parse
    if (methodSet methods).length = items.length && profile.acceptsMethods (methodSet methods) then
      some (methodSet methods)
    else none

/-- The loop of `bound_methods`: the unit and the methods seen so far. -/
def bindMethods (units : List String) (unit : Option String) (seen : List PaymentMethod) :
    List (Option DependencyBinding) → Option (Option String × List PaymentMethod)
  | [] => some (unit,seen)
  | some (.payment method bound) :: rest =>
    if !units.contains bound || unit.any (· ≠ bound) || seen.contains method then none
    else bindMethods units (some bound) (method :: seen) rest
  | _ :: _ => none

/-- The unit and method set bound by the `client` implementation's links: every
    binding a payment binding in one supported unit, each method once, and an
    advertisable set. -/
def boundMethods (profile : ProcessorProfile) (client : String) (bindings : List (Option DependencyBinding)) :
    Option (String × List PaymentMethod) := do
  let (unit,seen) ← bindMethods (profile.bindingUnits client) none [] bindings
  let unit ← unit
  if profile.acceptsMethods (methodSet seen) then some (unit,methodSet seen) else none

/-- The code of the issue that a profile's bindings are reported under. -/
def bindingsCode : ProcessorProfile → String
  | .ldkServer => "ldk_processor_payment_bindings"
  | .bark => "bark_processor_payment_bindings"
  | .spark => "spark_processor_payment_bindings"

end ProcessorProfile

/-- The first target of the links that is a payment processor or has a profile. -/
def processorTarget (cell : CellSpec) (links : List LinkSpec) : Option ComponentSpec :=
  links.findSome? fun link => cell.components.find? fun target =>
    target.id == link.to &&
      (target.kind == .paymentProcessor || (ProcessorProfile.forImplementation target.implementation).isSome)

/-- The bindings of a component name exactly the methods that are advertised, and
    reach one component of the given implementation. -/
def validateProcessorBindings (cell : CellSpec) (index : Nat) (component : ComponentSpec)
    (profile : ProcessorProfile) (implementation : String) (kind : ComponentKind)
    (advertised : List PaymentMethod) : List ValidationIssue :=
  let links := outgoing cell component .paymentBackend
  let bound := profile.boundMethods component.implementation (links.map LinkSpec.binding)
  let methods := ",".intercalate (advertised.map PaymentMethod.asStr)
  issue (!bound.any (fun (_,methods) => methods == advertised) ||
      !links.all fun link => cell.components.any fun target =>
        links.head?.map LinkSpec.to == some link.to && target.id == link.to && target.kind == kind &&
          target.implementation == implementation)
    profile.bindingsCode s!"/components/{index}"
    s!"this profile requires {profile.bindingDescription component.implementation} payment bindings to one {implementation} component; it advertises {methods}"

def validateProcessor (cell : CellSpec) (index : Nat) (component : ComponentSpec) : List ValidationIssue :=
  if component.implementation = ldkProcessor then
    match ProcessorProfile.ldkServer.advertisedMethods component with
    | none => []
    | some advertised => validateProcessorBindings cell index component .ldkServer "ldk-server" .lightning advertised
  else if component.implementation = "cdk" ∨ component.implementation = "nutshell" then
    match processorTarget cell (outgoing cell component .paymentBackend) with
    | none => []
    | some target =>
      match ProcessorProfile.forImplementation target.implementation with
      | none =>
        [⟨"unsupported_processor_profile",s!"/components/{index}",
          s!"unsupported payment processor implementation {quoted target.implementation}"⟩]
      | some profile =>
        -- Configuration validation reports an invalid advertised selection.
        match profile.advertisedMethods target with
        | none => []
        | some advertised =>
          validateProcessorBindings cell index component profile profile.implementation .paymentProcessor advertised
  else []

def validateProcessorTopology (cell : CellSpec) : List ValidationIssue :=
  enumerate (validateProcessor cell) cell.components

/-! ### CDK mints -/

def configured (component : ComponentSpec) (field default : String) : String :=
  ((component.get field).bind Json.asStr).getD default

def embedsLdk (component : ComponentSpec) : Bool := configured component "embedded_lightning" "none" == "ldk-node"

def embedsBdk (component : ComponentSpec) : Bool := configured component "embedded_onchain" "none" == "bdk"

/-- The (method, unit, backend) tuples a CDK mint serves from embedded backends.
    Upstream mintd always registers BDK on-chain in sat. -/
def embeddedPaymentTuples (component : ComponentSpec) : List (PaymentMethod × String × String) :=
  let unit := configured component "embedded_lightning_unit" "sat"
  (if embedsLdk component then [(.bolt11,unit,"ldk-node"),(.bolt12,unit,"ldk-node")] else []) ++
  if embedsBdk component then [(.onchain,"sat","bdk")] else []

/-- The override lets management RPC callers credit ecash that no payment backend
    confirmed, so the cell must declare it in its own policy. -/
def validateOverride (index : Nat) (component : ComponentSpec) : List ValidationIssue :=
  issue (component.implementation = "cdk" ∧
      (component.get "allow_mint_quote_payment_override").bind Json.asBool = some true)
    "mint_quote_payment_override_not_allowed"
    s!"/components/{index}/config/allow_mint_quote_payment_override"
    "lets management RPC callers record payments no backend confirmed; add \"mint.quote_payment_override\" to policy.allow to enable it"

def validatePaymentOverride (cell : CellSpec) : List ValidationIssue :=
  if cell.policy.allow.contains .mintQuotePaymentOverride then []
  else enumerate validateOverride cell.components

/-- The loop over the payment links of a mint: the tuples claimed so far and the
    unit of each linked backend. -/
def validatePaymentLinks (path : String) (claimed : List (PaymentMethod × String)) (units : List (String × String)) :
    List LinkSpec → List ValidationIssue
  | [] => []
  | link :: rest =>
    match link.binding with
    | some (.payment method unit) =>
      issue ((units.lookup link.to).any (· ≠ unit)) "cdk_payment_backend_unit_mixed" s!"{path}/links/{link.id}"
        s!"every payment_backend link to {quoted link.to} must use one unit; that backend renders one payment section" ++
      issue (claimed.contains (method,unit)) "cdk_payment_method_conflict" s!"{path}/links/{link.id}"
        s!"{method.debug}/{unit} is already served by another linked or embedded backend of this mint" ++
      validatePaymentLinks path ((method,unit) :: claimed)
        (if (units.lookup link.to).isSome then units else (link.to,unit) :: units) rest
    | _ => validatePaymentLinks path claimed units rest

/-- Embedded backends need exactly one chain; a mint without one may have none. -/
def validateEmbeddedChain (cell : CellSpec) (path : String) (component : ComponentSpec) : List ValidationIssue :=
  let embeds := embedsLdk component || embedsBdk component
  let chains := (outgoing cell component .chainBackend).length
  issue (embeds && chains ≠ 1) "cdk_embedded_chain_backend_required" path
    "embedded LDK Node or BDK requires exactly one chain_backend link to Bitcoin Core" ++
  issue (!embeds && 0 < chains) "cdk_chain_backend_unused" path
    "a chain_backend link is only used by embedded_lightning = ldk-node or embedded_onchain = bdk"

/-- Upstream keeps the auth store on the primary engine: SQLite beside the mint
    database, or a separate required PostgreSQL database. -/
def validateAuthStore (cell : CellSpec) (path : String) (component : ComponentSpec) : List ValidationIssue :=
  let bound := fun role => (outgoing cell component .databaseBackend).any fun link => link.binding.any (·.binds role)
  let authenticated := !(outgoing cell component .authenticationBackend).isEmpty
  if authenticated && bound .primary && !bound .authentication then
    [⟨"cdk_authentication_database_required",path,
      "a CDK mint on PostgreSQL requires a database_backend link with role authentication"⟩]
  else
    issue (bound .authentication && !bound .primary) "cdk_authentication_database_unused" path
      "a CDK mint on SQLite keeps its auth store in SQLite; remove the authentication database link"

def validateCdk (cell : CellSpec) (index : Nat) (component : ComponentSpec) : List ValidationIssue :=
  if component.implementation ≠ "cdk" then []
  else
    let path := s!"/components/{index}"
    let payments := outgoing cell component .paymentBackend
    issue (!isCashuUnit (configured component "embedded_lightning_unit" "sat")) "invalid_payment_unit"
      s!"{path}/config/embedded_lightning_unit"
      "must be a lowercase Cashu unit of 1..=64 ASCII letters, digits, '-' or '_'" ++
    validateEmbeddedChain cell path component ++
    validatePaymentLinks path ((embeddedPaymentTuples component).map fun (method,unit,_) => (method,unit)) [] payments ++
    issue (payments.isEmpty && !embedsLdk component && !embedsBdk component) "cdk_payment_path_required" path
      "link a payment_backend or enable embedded_lightning or embedded_onchain" ++
    validateAuthStore cell path component

def validateCdkTopology (cell : CellSpec) : List ValidationIssue :=
  enumerate (validateCdk cell) cell.components

end Proofstorm.Validation
