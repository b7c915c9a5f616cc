import Proofstorm.Publication.Catalog

/-!
Publication: the effective cell, with every default resolved and its components
and links in one order, and the lock, which records for each component the release
it runs and the digests of what was published.
-/
namespace Proofstorm.Publication
open Proofstorm.Core Validation

/-! ### The order of links -/

/-- A list of numbered texts; the derived orders of the records below compare them
    from the left. -/
abbrev SortKey : Type := List (Nat ×ₗ String)

def keyPart (rank : Nat) (text : String) : Nat ×ₗ String := toLex (rank,text)

def LinkKind.rank : LinkKind → Nat
  | .bitcoinPeer => 0
  | .lightningPeer => 1
  | .chainBackend => 2
  | .arkBackend => 3
  | .sparkBackend => 4
  | .paymentBackend => 5
  | .databaseBackend => 6
  | .authenticationBackend => 7
  | .networkPath => 8

def DatabaseRole.rank : DatabaseRole → Nat
  | .primary => 0
  | .cache => 1
  | .authentication => 2

def bindingKey : Option DependencyBinding → SortKey
  | none => [keyPart 0 ""]
  | some (.chain .regtest) => [keyPart 1 ""]
  | some (.ark .regtest) => [keyPart 2 ""]
  | some (.spark .regtest) => [keyPart 3 ""]
  | some (.payment method unit) => [keyPart 4 "",toLex method.rank,keyPart 0 unit]
  | some (.database role database) =>
    [keyPart 5 "",keyPart (DatabaseRole.rank role) "",
      match database with
      | none => keyPart 0 ""
      | some name => keyPart 1 name]
  | some (.authentication .oidc) => [keyPart 6 ""]

def linkKey (link : LinkSpec) : SortKey :=
  keyPart 0 link.id :: keyPart (LinkKind.rank link.kind) "" :: keyPart 0 link.from :: keyPart 0 link.to ::
    bindingKey link.binding

/-! ### The effective cell -/

def resolveComponent (catalog : CatalogResponse) (component : ComponentSpec) : Except String ComponentSpec := do
  let _ ← validateCatalogComponent component catalog
  let effective ← defaultRegistry.resolveEffectiveComponent component
  let _ ← validateCatalogComponent effective catalog
  return effective

/-- Components by id and links in their own order. -/
def canonical (cell : CellSpec) (components : List ComponentSpec) : CellSpec :=
  { cell with
    components := components.insertionSort fun a b => a.id ≤ b.id
    links := cell.links.insertionSort fun a b => linkKey a ≤ linkKey b }

/-- Resolve omitted backend defaults and canonical ordering for publication. -/
def resolveEffectiveCell (cell : CellSpec) (catalog : CatalogResponse) : Except String CellSpec := do
  let components ← cell.components.mapM (resolveComponent catalog)
  return canonical cell components

/-! ### Documents that are digested -/

def LinkKind.snake : LinkKind → String
  | .bitcoinPeer => "bitcoin_peer"
  | .lightningPeer => "lightning_peer"
  | .chainBackend => "chain_backend"
  | .arkBackend => "ark_backend"
  | .sparkBackend => "spark_backend"
  | .paymentBackend => "payment_backend"
  | .databaseBackend => "database_backend"
  | .authenticationBackend => "authentication_backend"
  | .networkPath => "network_path"

def bindingJson : DependencyBinding → Json
  | .chain .regtest => Json.object [("type",.str "chain"),("network",.str "regtest")]
  | .ark .regtest => Json.object [("type",.str "ark"),("network",.str "regtest")]
  | .spark .regtest => Json.object [("type",.str "spark"),("network",.str "regtest")]
  | .payment method unit =>
    Json.object [("type",.str "payment"),("method",.str method.asStr),("unit",.str unit)]
  | .database role database =>
    Json.object ([("type",.str "database"),("role",.str role.name)] ++
      (database.map fun name => ("database",Json.str name)).toList)
  | .authentication .oidc => Json.object [("type",.str "authentication"),("protocol",.str "oidc")]

def linkJson (link : LinkSpec) : Json :=
  Json.object ([("id",.str link.id),("kind",.str (LinkKind.snake link.kind)),("from",.str link.from),
    ("to",.str link.to)] ++ (link.binding.map fun binding => ("binding",bindingJson binding)).toList)

def portsJson (ports : List (String × Nat)) : Json :=
  Json.object (ports.map fun (name,port) => (name,.num port.repr))

def sourceJson : MountSource → Json
  | .statefulData => Json.object [("source",.str "stateful_data")]
  | .componentPersistentData => Json.object [("source",.str "component_persistent_data")]
  | .componentConfig => Json.object [("source",.str "component_config")]
  | .linkedStatefulData linkKind binding targetImplementation =>
    Json.object [("source",.str "linked_stateful_data"),("link_kind",.str (LinkKind.snake linkKind)),
      ("binding",bindingJson binding),("target_implementation",.str targetImplementation)]

def requirementJson : MountRequirement → Json
  | .required => Json.object [("kind",.str "required")]
  | .atLeastOne group => Json.object [("kind",.str "at_least_one"),("group",.str group)]

def mountJson (mount : ExecutionMount) : Json :=
  Json.object [("name",.str mount.name),("mount_path",.str mount.mountPath),("read_only",.bool mount.readOnly),
    ("requirement",requirementJson mount.requirement),("source",sourceJson mount.source)]

def environmentJson (environment : List (String × String)) : Json :=
  Json.object (environment.map fun (name,value) => (name,.str value))

/-! ### The lock -/

structure LockEntry where
  componentId : String
  catalogId : String
  adapterVersion : String
  protocolActionAdapterVersion : Option String
  version : String
  configVersion : String
  configSchemaDigest : String
  features : List CatalogFeature
  compatibleDependencies : List DependencySupport
  effectiveConfigDigest : String
  rolloutDigest : String
  image : String
  sourceDigest : String
  source : Option CandidateSource
  buildProvenance : Option Json
  /-- Native config overrides this component runs that Proofstorm has not verified. -/
  unverifiedNativeOverrides : List String
  deriving DecidableEq

structure ResolvedLock where
  apiVersion : String
  digest : String
  entries : List LockEntry
  deriving DecidableEq

/-- The image that a component runs: a workspace may author its own. -/
def runtimeImage (component : ComponentSpec) (entry : CatalogEntry) : String :=
  if entry.id = "workspace" then
    match ((component.get "runtime_image").bind Json.asStr).filter (· ≠ "") with
    | some image => mirrorImage image
    | none => entry.image
  else entry.image

def isRolloutRelevantLink (kind : LinkKind) : Bool := kind.isBackend || kind == .networkPath

/-- Whether this release declares any NUT-21/22 authentication mode. -/
def supportsAuthentication (entry : CatalogEntry) : Bool :=
  entry.supportMatrix.authentication.any (· ≠ .unauthenticated)

/-- Embedded backends have no link to check, so their configured tuples must be
    listed by the exact release. -/
def requireSupportedEmbeddedBindings (component : ComponentSpec) (entry : CatalogEntry) : Except String Unit :=
  if component.implementation ≠ "cdk" then .ok ()
  else
    match (embeddedPaymentTuples component).find? fun (method,unit,backend) =>
        !entry.supportMatrix.embeddedPaymentBindings.contains ⟨method,unit,backend⟩ with
    | none => .ok ()
    | some (method,unit,backend) =>
      .error s!"component {quoted component.id} version {quoted entry.version} does not support embedded payment tuple method {method.debug}, unit {quoted unit}, backend {quoted backend}"

/-- Whether a release serves a database role of another. -/
def supportsRole (entry target : CatalogEntry) : DatabaseRole → Bool
  | .primary => target.id == "postgresql"
  | .cache => entry.id == "nutshell" && target.id == "redis"
  | .authentication => supportsAuthentication entry && target.id == "postgresql"

/-- What a link asks of the release it belongs to and of the one it reaches. -/
def requireBindingSupport (componentId : String) (entry : CatalogEntry) (link : LinkSpec) (target : CatalogEntry) :
    Except String Unit :=
  match link.kind with
  | .paymentBackend =>
    match link.binding with
    | some (.payment method unit) =>
      ensure (entry.supportMatrix.paymentBindings.any fun support =>
          support.method == method && support.unit == unit && support.backend.implementation == target.id &&
            support.backend.versions.contains target.version)
        s!"component {quoted componentId} version {quoted entry.version} binding {quoted link.id} does not support payment tuple method {method.debug}, unit {quoted unit}, backend {quoted target.id} version {quoted target.version}"
    | _ => .error s!"component {quoted componentId} binding {quoted link.id} lacks a typed payment method and unit"
  | .databaseBackend =>
    match link.binding with
    | some (.database role _) =>
      ensure (supportsRole entry target role)
        s!"component {quoted componentId} version {quoted entry.version} binding {quoted link.id} does not support database role {role.name} with backend {quoted target.id} version {quoted target.version}"
    | _ => .error s!"component {quoted componentId} binding {quoted link.id} lacks a typed database role"
  | .authenticationBackend =>
    match link.binding with
    | some (.authentication .oidc) =>
      ensure (supportsAuthentication entry && target.id == "keycloak")
        s!"component {quoted componentId} version {quoted entry.version} binding {quoted link.id} does not support authentication protocol Oidc with backend {quoted target.id} version {quoted target.version}"
    | _ => .error s!"component {quoted componentId} binding {quoted link.id} lacks a typed authentication protocol"
  | _ => .ok ()

def requireCompatibleDependency (componentId : String) (entry : CatalogEntry) (link : LinkSpec)
    (target : CatalogEntry) : Except String Unit := do
  ensure (!link.kind.isBackend || entry.compatibleDependencies.any fun support =>
      support.linkKind == link.kind && support.implementation == target.id &&
        support.versions.contains target.version)
    s!"component {quoted componentId} version {quoted entry.version} does not declare {link.kind.name} compatibility with target {quoted link.to} version {quoted target.version}"
  requireBindingSupport componentId entry link target

def lockApiVersion : String := "proofstorm/lock/v2alpha1"

section
variable (digestJson : Json → String)

def effectiveConfigDigest (component : ComponentSpec) (entry : CatalogEntry) : String :=
  digestJson (Json.array [.str "proofstorm/effective-config-digest/v1",.str component.configVersion,
    .str entry.configSchemaDigest,Json.object component.config])

/-- What a component depends on of the target of one of its links. -/
def linkedTargetContract (effective : CellSpec) (catalog : CatalogResponse) (component : ComponentSpec)
    (entry : CatalogEntry) (link : LinkSpec) : Except String Json := do
  let target ← require (effective.components.find? (·.id == link.to))
    s!"component {quoted component.id} references missing linked target {quoted link.to}"
  let targetEntry ← validateCatalogComponent target catalog
  let targetBackend ← defaultRegistry.require targetEntry.id
  requireCompatibleDependency component.id entry link targetEntry
  return Json.array [linkJson link,.str targetEntry.id,.str targetEntry.adapterVersion,
    portsJson targetBackend.servicePorts,.str targetBackend.executionStateContract]

/-- The links of a component that its rollout digest covers. -/
def relevantLinks (effective : CellSpec) (component : ComponentSpec) : List LinkSpec :=
  effective.links.filter fun link => link.from == component.id && isRolloutRelevantLink link.kind

def rolloutDigest (component : ComponentSpec) (entry : CatalogEntry) (backend : BackendContract)
    (contracts : List Json) : String :=
  digestJson (Json.array [.str "proofstorm/rollout-digest/v1",.str entry.id,.str entry.adapterVersion,
    .str (runtimeImage component entry),.str entry.configSchemaDigest,
    .str (effectiveConfigDigest digestJson component entry),Json.array contracts,.str backend.executionStateContract,
    Json.array (backend.executionMounts.map mountJson),environmentJson backend.executionEnvironment])

def lockEntry (effective : CellSpec) (catalog : CatalogResponse) (component : ComponentSpec) :
    Except String LockEntry := do
  let entry ← validateCatalogComponent component catalog
  let backend ← defaultRegistry.require entry.id
  requireSupportedEmbeddedBindings component entry
  let image := runtimeImage component entry
  let contracts ← (relevantLinks effective component).mapM (linkedTargetContract effective catalog component entry)
  return {
    componentId := component.id
    catalogId := entry.id
    adapterVersion := entry.adapterVersion
    protocolActionAdapterVersion := entry.protocolActionAdapterVersion
    version := entry.version
    configVersion := entry.configVersion
    configSchemaDigest := entry.configSchemaDigest
    features := entry.features
    compatibleDependencies := entry.compatibleDependencies
    effectiveConfigDigest := effectiveConfigDigest digestJson component entry
    rolloutDigest := rolloutDigest digestJson component entry backend contracts
    image := image
    sourceDigest :=
      if image = entry.image then entry.sourceDigest
      else digestJson (Json.array [.str "workspace-runtime/v1",.str image])
    source := entry.source
    buildProvenance := entry.buildProvenance
    unverifiedNativeOverrides := overrideKeys component }

/-! ### The document of a lock -/

def CatalogFeature.snake : CatalogFeature → String
  | .nativeCli => "native_cli"
  | .nativeCliEntrypoints => "native_cli_entrypoints"
  | .mintManagementRpc => "mint_management_rpc"
  | .regtest => "regtest"
  | .persistentState => "persistent_state"
  | .bolt11 => "bolt11"
  | .bolt12 => "bolt12"
  | .onchain => "onchain"
  | .clearAuth => "clear_auth"
  | .blindAuth => "blind_auth"
  | .sqlite => "sqlite"
  | .postgres => "postgres"
  | .redisCache => "redis_cache"
  | .oidcProvider => "oidc_provider"
  | .walletOperations => "wallet_operations"

def dependencyJson (support : DependencySupport) : Json :=
  Json.object [("link_kind",.str (LinkKind.snake support.linkKind)),("implementation",.str support.implementation),
    ("versions",Json.array (support.versions.map .str))]

def candidateSourceJson (source : CandidateSource) : Json :=
  Json.object [("candidate_id",.str source.candidateId),("pull_request_url",.str source.pullRequestUrl),
    ("repository",.str source.repository),("commit_sha",.str source.commitSha)]

/-- An optional field is left out of the document where it is absent. -/
def optional (name : String) (value : Option Json) : List (String × Json) := (value.map fun value => (name,value)).toList

def LockEntry.json (entry : LockEntry) : Json :=
  Json.object ([("component_id",.str entry.componentId),("catalog_id",.str entry.catalogId),
      ("adapter_version",.str entry.adapterVersion)] ++
    optional "protocol_action_adapter_version" (entry.protocolActionAdapterVersion.map .str) ++
    [("version",.str entry.version),("config_version",.str entry.configVersion),
      ("config_schema_digest",.str entry.configSchemaDigest),
      ("features",Json.array (entry.features.map fun feature => .str feature.snake)),
      ("compatible_dependencies",Json.array (entry.compatibleDependencies.map dependencyJson)),
      ("effective_config_digest",.str entry.effectiveConfigDigest),("rollout_digest",.str entry.rolloutDigest),
      ("image",.str entry.image),("source_digest",.str entry.sourceDigest)] ++
    optional "source" (entry.source.map candidateSourceJson) ++
    optional "build_provenance" entry.buildProvenance ++
    optional "unverified_native_overrides"
      (if entry.unverifiedNativeOverrides = [] then none
        else some (Json.array (entry.unverifiedNativeOverrides.map .str))))

/-- `serde_json::to_string(&report.issues)`. -/
def issuesText (issues : List ValidationIssue) : String :=
  .ofList (Json.array (issues.map fun issue =>
    Json.object [("code",.str issue.code),("path",.str issue.path),("message",.str issue.message)])).write

/-- Resolve every cell component against the installed catalog and return a
    component-order-independent, rollout-aware lock. -/
def resolveLock (cell : CellSpec) (catalog : CatalogResponse) : Except String ResolvedLock := do
  ensure ((validateCell cell).valid = true) s!"cell_validation_failed: {issuesText (validateCell cell).issues}"
  let effective ← resolveEffectiveCell cell catalog
  let entries ← effective.components.mapM (lockEntry digestJson effective catalog)
  let entries := entries.insertionSort fun a b => a.componentId ≤ b.componentId
  return ⟨lockApiVersion,digestJson (Json.array (entries.map LockEntry.json)),entries⟩

end

end Proofstorm.Publication
