import Proofstorm.Authoring.Names

/-!
The checks that look at one entry of a cell at a time: its limits, its
components, and its links with the bindings they carry.
-/
namespace Proofstorm.Core

def LinkKind.name : LinkKind → String
  | .bitcoinPeer => "BitcoinPeer"
  | .lightningPeer => "LightningPeer"
  | .chainBackend => "ChainBackend"
  | .arkBackend => "ArkBackend"
  | .sparkBackend => "SparkBackend"
  | .paymentBackend => "PaymentBackend"
  | .databaseBackend => "DatabaseBackend"
  | .authenticationBackend => "AuthenticationBackend"
  | .networkPath => "NetworkPath"

def ComponentKind.name : ComponentKind → String
  | .bitcoin => "Bitcoin"
  | .lightning => "Lightning"
  | .arkServer => "ArkServer"
  | .sparkServer => "SparkServer"
  | .paymentProcessor => "PaymentProcessor"
  | .mint => "Mint"
  | .database => "Database"
  | .identityProvider => "IdentityProvider"
  | .wallet => "Wallet"
  | .workspace => "Workspace"
  | .proxy => "Proxy"
  | .oracle => "Oracle"

def LinkKind.isBackend : LinkKind → Bool
  | .bitcoinPeer | .lightningPeer | .networkPath => false
  | _ => true

/-- The backend link kind that carries this binding. -/
def DependencyBinding.linkKind : DependencyBinding → LinkKind
  | .chain _ => .chainBackend
  | .ark _ => .arkBackend
  | .spark _ => .sparkBackend
  | .payment _ _ => .paymentBackend
  | .database _ _ => .databaseBackend
  | .authentication _ => .authenticationBackend

def DatabaseRole.name : DatabaseRole → String
  | .primary => "primary"
  | .cache => "cache"
  | .authentication => "authentication"

/-- Whether a binding is one to a database in this role. -/
def DependencyBinding.binds (role : DatabaseRole) : DependencyBinding → Bool
  | .database bound _ => bound = role
  | _ => false

/-- The database that a binding owns on its target server: the authored name, or
    `<from>_<role>` with `-` replaced by `_`. -/
def LinkSpec.databaseName (link : LinkSpec) : Option String :=
  match link.binding with
  | some (.database role database) =>
    some (database.getD (Validation.dashesFolded link.from ++ "_" ++ role.name))
  | _ => none

/-- `config.get(field)`. -/
def ComponentSpec.get (component : ComponentSpec) (field : String) : Option Json := component.config.lookup field

end Proofstorm.Core

namespace Proofstorm.Validation
open Proofstorm.Core

/-! ### Limits and components -/

def exceedsPolicyLimit (count : Nat) (limit : Option Nat) : Bool := limit.any (· < count)

def validateLimits (cell : CellSpec) : List ValidationIssue :=
  let limits := cell.policy.limits
  ([("max_components",limits.maxComponents),("max_links",limits.maxLinks),
      ("max_config_bytes",limits.maxConfigBytes)].flatMap fun (field,value) =>
    issue (value = some 0) "invalid_limit" s!"/policy/limits/{field}"
      "must be positive when supplied; omit this field for no policy cap") ++
  issue (exceedsPolicyLimit cell.components.length limits.maxComponents) "component_limit_exceeded" "/components"
    "component count exceeds policy limit" ++
  issue (exceedsPolicyLimit cell.links.length limits.maxLinks) "link_limit_exceeded" "/links"
    "link count exceeds policy limit"

/-- `serde_json::to_vec(&component.config).len()`. -/
def configBytes (component : ComponentSpec) : Nat := (Json.object component.config).byteLength

def validateComponent (cell : CellSpec) (index : Nat) (component : ComponentSpec) : List ValidationIssue :=
  issue (!isSlug component.id) "invalid_component_id" s!"/components/{index}/id"
    "must be a lowercase kebab-case identifier of 1..=63 bytes" ++
  issue ((cell.components.take index).any (·.id == component.id)) "duplicate_component_id" s!"/components/{index}/id"
    s!"component {quoted component.id} appears more than once" ++
  issue (!isSlug component.implementation) "invalid_implementation" s!"/components/{index}/implementation"
    "must be a lowercase kebab-case catalog identifier" ++
  issue (!isConfigVersionIdentifier component.configVersion) "invalid_config_version"
    s!"/components/{index}/config_version"
    "must be an implementation-scoped identifier of 1..=128 ASCII alphanumeric, '.', '+', '-', or '/' characters with non-empty path segments" ++
  issue (exceedsPolicyLimit (configBytes component) cell.policy.limits.maxConfigBytes) "config_too_large"
    s!"/components/{index}/config" "serialized configuration exceeds the user-selected byte limit"

def validateComponents (cell : CellSpec) : List ValidationIssue :=
  enumerate (validateComponent cell) cell.components

/-! ### Links -/

def validateLinkIdentity (cell : CellSpec) (index : Nat) (link : LinkSpec) : List ValidationIssue :=
  issue (!isSlug link.id) "invalid_link_id" s!"/links/{index}/id"
    "must be a lowercase kebab-case binding identifier of 1..=63 bytes" ++
  issue ((cell.links.take index).any (·.id == link.id)) "duplicate_link_id" s!"/links/{index}/id"
    s!"binding {quoted link.id} appears more than once"

def validateBinding (index : Nat) (link : LinkSpec) : List ValidationIssue :=
  let path := s!"/links/{index}/binding"
  (match link.binding with
  | some binding =>
    if !link.kind.isBackend then
      [⟨"unexpected_dependency_binding",path,
        "peer and network-path links cannot carry dependency binding payloads"⟩]
    else
      issue (binding.linkKind ≠ link.kind) "incompatible_dependency_binding" path
        s!"binding payload does not match {link.kind.name}"
  | none => issue link.kind.isBackend "missing_dependency_binding" path "backend links require a typed binding payload") ++
  match link.binding with
  | some (.payment _ unit) =>
    issue (!isCashuUnit unit) "invalid_payment_unit" s!"/links/{index}/binding/unit"
      "must be a lowercase Cashu unit of 1..=64 ASCII letters, digits, '-' or '_'"
  | _ => []

/-- The code and the message of a role that a component binds twice. -/
def duplicatedRole : DatabaseRole → String × String
  | .primary => ("duplicate_primary_database","a component can bind exactly one primary database")
  | .cache => ("duplicate_cache_database","a component can bind exactly one cache database")
  | .authentication =>
    ("duplicate_authentication_database","a component can bind exactly one authentication database")

def validateDatabaseRole (index : Nat) (link : LinkSpec) (previous : List LinkSpec) : List ValidationIssue :=
  match link.binding with
  | some (.database role _) =>
    let name := link.databaseName.getD ""
    -- PostgreSQL folds unquoted identifiers and limits them to 63 bytes.
    issue (63 < name.utf8ByteSize || !isPostgresIdentifier name) "invalid_database_name"
      s!"/links/{index}/binding/database"
      "must begin with a lowercase ASCII letter, contain only lowercase ASCII letters, digits or '_', and fit 63 bytes" ++
    -- Each binding owns one database on its target server.
    issue (previous.any fun candidate =>
        candidate.to == link.to && candidate.kind == .databaseBackend && candidate.databaseName == some name)
      "duplicate_database_name" s!"/links/{index}/binding/database"
      s!"database {quoted name} is already bound on {quoted link.to}" ++
    issue (previous.any fun candidate => candidate.from == link.from && candidate.binding.any (·.binds role))
      (duplicatedRole role).1 s!"/links/{index}" (duplicatedRole role).2
  | _ => []

/-- The kinds of component that serve a payment binding. -/
def paymentTargets : Option DependencyBinding → List ComponentKind
  | some (.payment .onchain _) => [.bitcoin,.paymentProcessor]
  | some (.payment (.custom _) _) => [.paymentProcessor]
  | some (.payment _ _) => [.lightning,.paymentProcessor]
  | _ => [.lightning,.bitcoin,.paymentProcessor]

/-- Which component kinds each link kind may join. -/
def compatibleKinds (link : LinkSpec) (source target : ComponentKind) : Bool :=
  match link.kind with
  | .bitcoinPeer => source = .bitcoin ∧ target = .bitcoin
  | .lightningPeer => source = .lightning ∧ target = .lightning
  | .chainBackend =>
    source ∈ [.lightning,.mint,.paymentProcessor,.arkServer,.sparkServer] ∧ target = .bitcoin
  | .arkBackend => source = .paymentProcessor ∧ target = .arkServer
  | .sparkBackend => source ∈ [.paymentProcessor,.sparkServer] ∧ target = .sparkServer
  | .paymentBackend =>
    source ∈ [.mint,.paymentProcessor,.arkServer,.sparkServer] ∧ target ∈ paymentTargets link.binding
  | .databaseBackend => source ∈ [.mint,.identityProvider,.arkServer,.sparkServer] ∧ target = .database
  | .authenticationBackend => source = .mint ∧ target = .identityProvider
  | .networkPath => true

/-- The kind of a component as the map of kinds holds it: of equal ids the last counts. -/
def kindOf (cell : CellSpec) (id : String) : Option ComponentKind :=
  (cell.components.reverse.find? (·.id == id)).map ComponentSpec.kind

def validateEndpoint (cell : CellSpec) (index : Nat) (field endpoint : String) : List ValidationIssue :=
  issue (!cell.ids.contains endpoint) "missing_link_endpoint" s!"/links/{index}/{field}"
    s!"component {quoted endpoint} does not exist"

def validateLinkKinds (cell : CellSpec) (index : Nat) (link : LinkSpec) : List ValidationIssue :=
  match kindOf cell link.from, kindOf cell link.to with
  | some source, some target =>
    issue (!compatibleKinds link source target) "incompatible_link_kinds" s!"/links/{index}"
      s!"{link.kind.name} does not support {source.name} -> {target.name}"
  | _, _ => []

def validateLink (cell : CellSpec) (index : Nat) (link : LinkSpec) : List ValidationIssue :=
  validateLinkIdentity cell index link ++ validateBinding index link ++
  validateDatabaseRole index link (cell.links.take index) ++
  issue (link.from == link.to) "self_link" s!"/links/{index}" "link endpoints must be different" ++
  validateEndpoint cell index "from" link.from ++ validateEndpoint cell index "to" link.to ++
  validateLinkKinds cell index link

def validateLinks (cell : CellSpec) : List ValidationIssue := enumerate (validateLink cell) cell.links

end Proofstorm.Validation
