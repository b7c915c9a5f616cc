import Proofstorm.Publication.Registry

/-!
The catalog: the exact releases that are installed, what each of them supports,
and the check of one component against the release that it selects.
-/
namespace Proofstorm.Publication
open Proofstorm.Core Validation

inductive SupportLifecycle
  | preferred | supported | deprecated | experimental
  deriving DecidableEq

inductive CatalogFeature
  | nativeCli | nativeCliEntrypoints | mintManagementRpc | regtest | persistentState | bolt11 | bolt12 | onchain
  | clearAuth | blindAuth | sqlite | postgres | redisCache | oidcProvider | walletOperations
  deriving DecidableEq

inductive AuthenticationMode
  | unauthenticated | nut21Clear | nut22Blind
  deriving DecidableEq

structure EmbeddedPaymentSupport where
  method : PaymentMethod
  unit : String
  backend : String
  deriving DecidableEq

structure VersionSupport where
  implementation : String
  versions : List String
  deriving DecidableEq

structure PaymentSupport where
  method : PaymentMethod
  unit : String
  backend : VersionSupport
  deriving DecidableEq

structure DependencySupport where
  linkKind : LinkKind
  implementation : String
  versions : List String
  deriving DecidableEq

/-- What publication reads of the support matrix of a release. -/
structure SupportMatrix where
  paymentBindings : List PaymentSupport
  embeddedPaymentBindings : List EmbeddedPaymentSupport
  authentication : List AuthenticationMode
  deriving DecidableEq

/-- One installed release, as publication reads it. -/
structure CatalogEntry where
  id : String
  kind : ComponentKind
  adapterVersion : String
  protocolActionAdapterVersion : Option String
  version : String
  supportLifecycle : SupportLifecycle
  configVersion : String
  configSchemaDigest : String
  features : List CatalogFeature
  compatibleDependencies : List DependencySupport
  supportMatrix : SupportMatrix
  image : String
  sourceDigest : String
  source : Option CandidateSource
  /-- The record of the build, as it is serialized. -/
  buildProvenance : Option Json
  allowedControl : List ControlClass
  deriving DecidableEq

abbrev CatalogResponse : Type := List CatalogEntry

def mirrorImage (image : String) : String :=
  if "docker.io/".toList.isPrefixOf image.toList || "quay.io/".toList.isPrefixOf image.toList then
    "proofstorm-registry.localhost:5000/upstream/" ++ image
  else image

/-- A preferred release of a backend; the digests are those of its authoring schema
    and of its description. -/
def catalogEntry (backend : BackendContract) (version image schemaDigest sourceDigest : String)
    (features : List CatalogFeature) (compatibleDependencies : List DependencySupport)
    (supportMatrix : SupportMatrix) (allowedControl : List ControlClass) : CatalogEntry :=
  { id := backend.id
    kind := backend.kind
    adapterVersion := "0.1.0-alpha.1"
    protocolActionAdapterVersion := some "0.1.0-alpha.1"
    version := version
    supportLifecycle := .preferred
    configVersion := backend.configVersion
    configSchemaDigest := schemaDigest
    features := features
    compatibleDependencies := compatibleDependencies
    supportMatrix := supportMatrix
    image := mirrorImage image
    sourceDigest := sourceDigest
    source := none
    buildProvenance := none
    allowedControl := allowedControl }

/-! ### The settings that a pinned Nutshell release reads -/

def nutshell0203 : List String :=
  ["API_HOST","API_PORT","CASHU_DIR","DB_BACKUP_PATH","DB_CONNECTION_POOL","DEBUG","DEBUG_MINT_ONLY_DEPRECATED",
   "DEBUG_PROFILING","ENV_FILE","FAKEWALLET_BALANCE_EUR","FAKEWALLET_BALANCE_SAT","FAKEWALLET_BALANCE_USD",
   "FAKEWALLET_BRR","FAKEWALLET_DELAY_INCOMING_PAYMENT","FAKEWALLET_DELAY_OUTGOING_PAYMENT",
   "FAKEWALLET_PAYMENT_STATE","FAKEWALLET_PAYMENT_STATE_EXCEPTION","FAKEWALLET_PAY_INVOICE_STATE",
   "FAKEWALLET_PAY_INVOICE_STATE_EXCEPTION","FAKEWALLET_STOCHASTIC_INVOICE","HTTP_PROXY","LIGHTNING_FEE_PERCENT",
   "LIGHTNING_RESERVE_FEE_MIN","LOCKTIME_DELTA_SECONDS","LOG_LEVEL","MAX_ORDER","MELT_QUOTE_TTL","MINT_AUTH_DATABASE",
   "MINT_AUTH_MAX_BLIND_TOKENS","MINT_AUTH_OICD_CLIENT_ID","MINT_AUTH_OICD_DISCOVERY_URL",
   "MINT_AUTH_RATE_LIMIT_PER_MINUTE","MINT_BACKEND_BOLT11_EUR","MINT_BACKEND_BOLT11_MSAT","MINT_BACKEND_BOLT11_SAT",
   "MINT_BACKEND_BOLT11_USD","MINT_BLINK_KEY","MINT_BOLT11_DISABLE_MELT","MINT_BOLT11_DISABLE_MINT",
   "MINT_CLNREST_CERT","MINT_CLNREST_ENABLE_MPP","MINT_CLNREST_RUNE","MINT_CLNREST_URL",
   "MINT_CORELIGHTNING_REST_CERT","MINT_CORELIGHTNING_REST_MACAROON","MINT_CORELIGHTNING_REST_URL","MINT_DATABASE",
   "MINT_DATABASE_LOCK_TIMEOUT","MINT_DERIVATION_PATH","MINT_DERIVATION_PATH_LIST","MINT_DISABLE_MELT_ON_ERROR",
   "MINT_FORWARDED_ALLOW_IPS","MINT_GLOBAL_RATE_LIMIT_PER_MINUTE","MINT_HOST","MINT_INACTIVATE_BASE64_KEYSETS",
   "MINT_INFO_CONTACT","MINT_INFO_DESCRIPTION","MINT_INFO_DESCRIPTION_LONG","MINT_INFO_ICON_URL","MINT_INFO_MOTD",
   "MINT_INFO_NAME","MINT_INFO_TOS_URL","MINT_INFO_URLS","MINT_INPUT_FEE_PPK","MINT_LIGHTNING_BACKEND",
   "MINT_LISTEN_HOST","MINT_LISTEN_PORT","MINT_LNBITS_ENDPOINT","MINT_LNBITS_KEY","MINT_LND_ENABLE_MPP",
   "MINT_LND_REST_ADMIN_MACAROON","MINT_LND_REST_CERT","MINT_LND_REST_CERT_VERIFY","MINT_LND_REST_ENDPOINT",
   "MINT_LND_REST_INVOICE_MACAROON","MINT_LND_REST_MACAROON","MINT_LND_RPC_CERT","MINT_LND_RPC_ENDPOINT",
   "MINT_LND_RPC_MACAROON","MINT_MAX_BALANCE","MINT_MAX_MELT_BOLT11_SAT","MINT_MAX_MINT_BOLT11_SAT","MINT_MAX_PEG_IN",
   "MINT_MAX_PEG_OUT","MINT_MAX_REQUEST_LENGTH","MINT_MAX_SECRET_LENGTH","MINT_MAX_WITNESS_LENGTH",
   "MINT_PEG_OUT_ONLY","MINT_PORT","MINT_PRIVATE_KEY","MINT_QUOTE_BACKEND_CHECK_RATE_LIMIT","MINT_QUOTE_TTL",
   "MINT_RATE_LIMIT","MINT_RATE_LIMIT_PROXY_TRUST","MINT_REDIS_CACHE_CLUSTER","MINT_REDIS_CACHE_ENABLED",
   "MINT_REDIS_CACHE_TTL","MINT_REDIS_CACHE_URL","MINT_REGULAR_TASKS_INTERVAL_SECONDS","MINT_REQUIRE_AUTH",
   "MINT_REQUIRE_BLIND_AUTH_PATHS","MINT_REQUIRE_CLEAR_AUTH_PATHS","MINT_RETRY_EXPONENTIAL_BACKOFF_BASE_DELAY",
   "MINT_RETRY_EXPONENTIAL_BACKOFF_MAX_DELAY","MINT_RPC_SERVER_ADDR","MINT_RPC_SERVER_CA","MINT_RPC_SERVER_CERT",
   "MINT_RPC_SERVER_ENABLE","MINT_RPC_SERVER_KEY","MINT_RPC_SERVER_MUTUAL_TLS","MINT_RPC_SERVER_PORT",
   "MINT_SEED_DECRYPTION_KEY","MINT_SPARK_API_KEY","MINT_SPARK_MNEMONIC","MINT_SPARK_NETWORK","MINT_STRIKE_KEY",
   "MINT_TEST_DATABASE","MINT_TRANSACTION_RATE_LIMIT_PER_MINUTE","MINT_URL",
   "MINT_WATCHDOG_BALANCE_CHECK_INTERVAL_SECONDS","MINT_WATCHDOG_ENABLED","MINT_WATCHDOG_IGNORE_MISMATCH",
   "MINT_WEBSOCKET_READ_TIMEOUT","NPUB_CASH_HOSTNAME","PROOFS_BATCH_SIZE","SOCKS_HOST","SOCKS_PORT","SOCKS_PROXY",
   "TOR","VERSION","WALLET_INACTIVATE_BASE64_KEYSETS","WALLET_NAME","WALLET_TARGET_AMOUNT_COUNT","WALLET_UNIT",
   "WALLET_VERBOSE_REQUESTS"]

def nutshell0210 : List String :=
  ["API_HOST","API_PORT","CASHU_DIR","DB_BACKUP_PATH","DB_CONNECTION_POOL","DEBUG","DEBUG_PROFILING","ENV_FILE",
   "FAKEWALLET_BALANCE_EUR","FAKEWALLET_BALANCE_SAT","FAKEWALLET_BALANCE_USD","FAKEWALLET_BRR",
   "FAKEWALLET_DELAY_INCOMING_PAYMENT","FAKEWALLET_DELAY_OUTGOING_PAYMENT","FAKEWALLET_PAYMENT_STATE",
   "FAKEWALLET_PAYMENT_STATE_EXCEPTION","FAKEWALLET_PAY_INVOICE_STATE","FAKEWALLET_PAY_INVOICE_STATE_EXCEPTION",
   "FAKEWALLET_STOCHASTIC_INVOICE","HTTP_PROXY","LIGHTNING_FEE_PERCENT","LIGHTNING_RESERVE_FEE_MIN",
   "LOCKTIME_DELTA_SECONDS","LOG_LEVEL","MAX_ORDER","MELT_QUOTE_TTL","MINT_AUTH_DATABASE",
   "MINT_AUTH_MAX_BLIND_TOKENS","MINT_AUTH_OICD_CLIENT_ID","MINT_AUTH_OICD_DISCOVERY_URL",
   "MINT_AUTH_RATE_LIMIT_PER_MINUTE","MINT_BACKEND_BOLT11_EUR","MINT_BACKEND_BOLT11_MSAT","MINT_BACKEND_BOLT11_SAT",
   "MINT_BACKEND_BOLT11_USD","MINT_BOLT11_DISABLE_MELT","MINT_BOLT11_DISABLE_MINT","MINT_CLNREST_CERT",
   "MINT_CLNREST_ENABLE_MPP","MINT_CLNREST_RUNE","MINT_CLNREST_URL","MINT_DATABASE","MINT_DATABASE_LOCK_TIMEOUT",
   "MINT_DERIVATION_PATH","MINT_DERIVATION_PATH_LIST","MINT_DISABLE_MELT_ON_ERROR","MINT_FORWARDED_ALLOW_IPS",
   "MINT_GLOBAL_RATE_LIMIT_PER_MINUTE","MINT_HOST","MINT_INACTIVATE_BASE64_KEYSETS","MINT_INFO_CONTACT",
   "MINT_INFO_DESCRIPTION","MINT_INFO_DESCRIPTION_LONG","MINT_INFO_ICON_URL","MINT_INFO_MOTD","MINT_INFO_NAME",
   "MINT_INFO_TOS_URL","MINT_INFO_URLS","MINT_INPUT_FEE_PPK","MINT_LIGHTNING_BACKEND","MINT_LISTEN_HOST",
   "MINT_LISTEN_PORT","MINT_LND_ALLOW_SELF_PAYMENT","MINT_LND_ENABLE_MPP","MINT_LND_REST_ADMIN_MACAROON",
   "MINT_LND_REST_CERT","MINT_LND_REST_CERT_VERIFY","MINT_LND_REST_ENDPOINT","MINT_LND_REST_INVOICE_MACAROON",
   "MINT_LND_REST_MACAROON","MINT_LND_RPC_CERT","MINT_LND_RPC_ENDPOINT","MINT_LND_RPC_MACAROON","MINT_MAX_BALANCE",
   "MINT_MAX_MELT_BOLT11_SAT","MINT_MAX_MINT_BOLT11_SAT","MINT_MAX_PEG_IN","MINT_MAX_PEG_OUT",
   "MINT_MAX_REQUEST_LENGTH","MINT_MAX_SECRET_LENGTH","MINT_MAX_WITNESS_LENGTH","MINT_PEG_OUT_ONLY","MINT_PORT",
   "MINT_PRIVATE_KEY","MINT_QUOTE_BACKEND_CHECK_RATE_LIMIT","MINT_QUOTE_TTL","MINT_RATE_LIMIT",
   "MINT_RATE_LIMIT_PROXY_TRUST","MINT_REDIS_CACHE_CLUSTER","MINT_REDIS_CACHE_ENABLED","MINT_REDIS_CACHE_TTL",
   "MINT_REDIS_CACHE_URL","MINT_REGULAR_TASKS_INTERVAL_SECONDS","MINT_REQUIRE_AUTH","MINT_REQUIRE_BLIND_AUTH_PATHS",
   "MINT_REQUIRE_CLEAR_AUTH_PATHS","MINT_RETRY_EXPONENTIAL_BACKOFF_BASE_DELAY",
   "MINT_RETRY_EXPONENTIAL_BACKOFF_MAX_DELAY","MINT_RPC_SERVER_ADDR","MINT_RPC_SERVER_CA","MINT_RPC_SERVER_CERT",
   "MINT_RPC_SERVER_ENABLE","MINT_RPC_SERVER_KEY","MINT_RPC_SERVER_MUTUAL_TLS","MINT_RPC_SERVER_PORT",
   "MINT_SEED_DECRYPTION_KEY","MINT_SPARK_API_KEY","MINT_SPARK_MNEMONIC","MINT_SPARK_NETWORK","MINT_STRIKE_KEY",
   "MINT_TEST_DATABASE","MINT_TRANSACTION_RATE_LIMIT_PER_MINUTE","MINT_URL",
   "MINT_WATCHDOG_BALANCE_CHECK_INTERVAL_SECONDS","MINT_WATCHDOG_ENABLED","MINT_WATCHDOG_IGNORE_MISMATCH",
   "MINT_WEBSOCKET_READ_TIMEOUT","NPUB_CASH_HOSTNAME","PROOFS_BATCH_SIZE","SOCKS_HOST","SOCKS_PORT","SOCKS_PROXY",
   "TOR","VERSION","WALLET_INACTIVATE_BASE64_KEYSETS","WALLET_NAME","WALLET_TARGET_AMOUNT_COUNT","WALLET_UNIT",
   "WALLET_VERBOSE_REQUESTS"]

def nutshellSettings (version : String) : Option (List String) :=
  if version = "0.20.3" then some nutshell0203
  else if version = "0.21.0" then some nutshell0210
  else none

/-- Refuse `native_env` names the selected Nutshell release has no setting for.
    Candidate builds have no pinned list, so their names stay unchecked. -/
def validateReleaseNames (component : ComponentSpec) (entry : CatalogEntry) : Except String Unit :=
  if component.implementation ≠ "nutshell" ∨ entry.source.isSome then .ok ()
  else
    match nutshellSettings entry.version with
    | none => .ok ()
    | some known =>
      let unknown := (overrideKeys component).filter fun name =>
        !known.any fun setting => asciiUppercase setting.toList == asciiUppercase name.toList
      ensure (unknown = [])
        s!"native_config_override_unknown: component {quoted component.id} native_env names settings Nutshell {entry.version} does not read: {listed unknown}"

/-! ### The release that a component selects -/

/-- The release of the requested version, or the only preferred one. -/
def selectRelease (component : ComponentSpec) (candidates : List CatalogEntry) : Except String CatalogEntry :=
  match component.version with
  | some requested =>
    require (candidates.find? (·.version == requested))
      s!"component {quoted component.id} requests version {quoted requested}, explicitly supported versions are [{listed (candidates.map fun entry => quoted entry.version)}]"
  | none =>
    match candidates.filter (·.supportLifecycle == .preferred) with
    | [entry] => .ok entry
    | preferred =>
      .error s!"catalog implementation {quoted component.implementation} has {preferred.length} preferred versions; exactly one is required when a component omits version"

def ControlClass.name : ControlClass → String
  | .cell => "Cell"
  | .target => "Target"
  | .workspace => "Workspace"
  | .oracle => "Oracle"

def validateCatalogComponent (component : ComponentSpec) (catalog : CatalogResponse) : Except String CatalogEntry := do
  let candidates := catalog.filter (·.id == component.implementation)
  ensure (candidates ≠ []) s!"catalog entry {quoted component.implementation} is not installed"
  let entry ← selectRelease component candidates
  ensure (component.kind = entry.kind)
    s!"component {quoted component.id} kind {component.kind.name} does not match catalog kind {entry.kind.name}"
  ensure (component.control ∈ entry.allowedControl)
    s!"component {quoted component.id} control class {ControlClass.name component.control} is not allowed by catalog entry {quoted entry.id}"
  ensure (component.configVersion = entry.configVersion)
    s!"component {quoted component.id} requests configuration version {quoted component.configVersion}, installed version {quoted entry.version} requires {quoted entry.configVersion}"
  defaultRegistry.validateComponentConfig component
  validateReleaseNames component entry
  return entry

end Proofstorm.Publication
