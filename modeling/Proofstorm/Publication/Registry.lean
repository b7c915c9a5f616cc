import Proofstorm.Publication.Contract

/-!
The built-in backend contracts. `configField` declares a setting that an agent may
author, with its default; `managedField` one that Proofstorm derives or owns. What
a field is described as in the authoring schema is left out: no check reads it.
-/
namespace Proofstorm.Publication
open Proofstorm.Core Validation

/-! ### Fields -/

def configField (valueKind : ConfigValueKind) (default : ConfigDefault) : ConfigFieldContract :=
  { valueKind := valueKind
    classification := .agentAuthorable
    default := some default
    enumValues := []
    minimum := none
    maximum := none
    minLength := none
    maxLength := none
    required := true }

def managedField (valueKind : ConfigValueKind) (classification : ConfigSettingClass) : ConfigFieldContract :=
  { configField valueKind .componentId with classification := classification, default := none }

namespace ConfigFieldContract

def withNumericBounds (field : ConfigFieldContract) (minimum maximum : ℚ) : ConfigFieldContract :=
  { field with minimum := some minimum, maximum := some maximum }

def withStringBounds (field : ConfigFieldContract) (minimum maximum : Nat) : ConfigFieldContract :=
  { field with minLength := some minimum, maxLength := some maximum }

def withEnumValues (field : ConfigFieldContract) (values : List String) : ConfigFieldContract :=
  { field with enumValues := values.map .str }

end ConfigFieldContract

/-- An integer setting with its default and its bounds. -/
def integer (default : String) (minimum maximum : ℚ) : ConfigFieldContract :=
  (configField .integer (.literal (.num default))).withNumericBounds minimum maximum

def number (default : String) (minimum maximum : ℚ) : ConfigFieldContract :=
  (configField .number (.literal (.num default))).withNumericBounds minimum maximum

def boolean (default : Bool) : ConfigFieldContract := configField .boolean (.literal (.bool default))

def text (default : String) (minimum maximum : Nat) : ConfigFieldContract :=
  (configField .string (.literal (.str default))).withStringBounds minimum maximum

def choice (default : String) (values : List String) : ConfigFieldContract :=
  (configField .string (.literal (.str default))).withEnumValues values

/-- The alias of a Lightning node: the id of its component unless it is authored. -/
def nodeAlias : String × ConfigFieldContract := ("alias",(configField .string .componentId).withStringBounds 1 32)

def topology (name : String) : String × ConfigFieldContract := (name,managedField .string .topologyDerived)
def secret (name : String) : String × ConfigFieldContract := (name,managedField .string .generatedInstanceSecret)
def policy (name : String) : String × ConfigFieldContract := (name,managedField .string .runtimePolicy)

def managedConfigFields (backend : String) : List (String × ConfigFieldContract) :=
  if backend = "bitcoin-core" then
    [policy "data_directory",policy "debug_level",policy "network",topology "p2p_bind",policy "rpc_allow_policy",
      topology "rpc_bind",policy "rpc_credentials",policy "server_mode",topology "zmq_endpoints"]
  else if backend = "lnd" then
    [policy "accept_keysend",secret "admin_macaroon",topology "chain_backend_endpoint",
      secret "chain_backend_credentials",policy "data_directory",policy "debug_level",topology "external_address",
      topology "listen_endpoints",policy "network",policy "seed_backup_policy",topology "tls_extra_domain",
      secret "tls_identity"]
  else if backend = "cln" then
    [topology "announce_endpoint",policy "autoconnect_policy",
      ("bitcoin_retry_timeout",managedField .integer .runtimePolicy),topology "chain_backend_endpoint",
      secret "chain_backend_credentials",policy "data_directory",policy "developer_mode",topology "listen_endpoint",
      policy "network",policy "log_level",policy "reconnect_policy"]
  else if backend = "cdk" then
    [policy "authentication",topology "authentication_database",secret "bdk_mnemonic",
      policy "bdk_storage_directory",policy "chain_backend_credentials",topology "chain_backend_endpoint",
      ("confirmation_target",managedField .integer .runtimePolicy),topology "database_engine",policy "database_path",
      topology "ldk_listen_endpoint",secret "ldk_node_mnemonic",policy "ldk_storage_directory",
      secret "lightning_backend_credentials",topology "lightning_backend_endpoint",topology "lightning_backend_kind",
      topology "listen_address",secret "mint_mnemonic",policy "network",topology "payment_backends",
      topology "public_url",topology "unit",policy "work_directory"]
  else if backend = "nutshell" then
    [policy "authentication",topology "authentication_database",topology "backend_kind",topology "database",
      policy "data_directory",policy "derivation_path",policy "forwarded_allow_ips",
      secret "lightning_backend_credentials",topology "lightning_backend_endpoint",topology "listen_address",
      secret "mint_private_key",topology "public_url",topology "redis_cache",secret "redis_cache_credentials",
      policy "tor",policy "unit"]
  else if backend = "cocod-wallet" then
    [policy "data_directory",policy "daemon_process",policy "listener",secret "client_credential",
      policy "storage_size",topology "wallet_identity",secret "wallet_seed"]
  else if backend = "nutshell-wallet" ∨ backend = "cdk-cli-wallet" then
    [policy "data_directory",policy "idle_process",policy "storage_size",topology "wallet_identity",
      secret "wallet_seed"]
  else if backend = "workspace" then
    [policy "task_supervisor",policy "service_account_access",policy "workspace_profile"]
  else if backend = "postgresql" then
    [secret "credentials",topology "databases",policy "data_directory",topology "listen_endpoint",policy "tls_mode"]
  else if backend = "redis" then
    [secret "credentials",policy "eviction_policy",topology "listen_endpoint",policy "persistence"]
  else if backend = "keycloak" then
    [secret "administrator_credentials",policy "client_id",secret "database_credentials",
      topology "database_endpoint",policy "realm",secret "realm_import",secret "test_user_credentials"]
  else []

/-- The authorable, optional override field of a mint. -/
def overrideField (backend : String) : List (String × ConfigFieldContract) :=
  match overrides backend with
  | some overrides =>
    [(overrides.field,{ managedField .object .agentAuthorable with required := false })]
  | none => []

/-- The management RPC that both mints run. -/
def managementFields (backend : String) : List (String × ConfigFieldContract) :=
  if backend = "cdk" ∨ backend = "nutshell" then [policy "management_rpc",secret "management_credentials"] else []

/-! ### Mounts -/

def mount (name mountPath : String) (readOnly : Bool) (source : MountSource) : ExecutionMount :=
  ⟨name,mountPath,readOnly,.required,source⟩

/-- The data of the node that a `bolt11/sat` link reaches. -/
def bolt11Data (implementation : String) : MountSource :=
  .linkedStatefulData .paymentBackend (.payment .bolt11 "sat") implementation

def alternativeMount (name mountPath : String) : ExecutionMount :=
  ⟨name,mountPath,true,.atLeastOne "payment-backend",bolt11Data name⟩

def executionMounts (backend : String) : List ExecutionMount :=
  if backend = "bitcoin-core" then [mount "data" "/home/bitcoin/.bitcoin" false .statefulData]
  else if backend = "lnd" then [mount "data" "/home/lnd/.lnd" false .statefulData]
  else if backend = "cln" then [mount "data" "/home/cln/.lightning" false .statefulData]
  else if backend = "postgresql" then [mount "data" "/var/lib/postgresql/data" false .statefulData]
  else if backend = "cdk" then
    [mount "config" "/config" true .componentConfig,mount "data" "/app/data" false .componentPersistentData,
      alternativeMount "lnd" "/lnd",alternativeMount "cln" "/cln"]
  else if backend = "nutshell" then
    [mount "data" "/app/data" false .componentPersistentData,alternativeMount "lnd" "/lnd",
      alternativeMount "cln" "/cln"]
  else if backend = "cocod-wallet" ∨ backend = "nutshell-wallet" ∨ backend = "cdk-cli-wallet" then
    [mount "wallet" "/wallet" false .componentPersistentData]
  else if backend = "workspace" then [mount "workspace" "/workspace" false .componentPersistentData]
  else []

def executionEnvironment (backend : String) : List (String × String) :=
  if backend = "bitcoin-core" then [("HOME","/home/bitcoin")]
  else if backend = "lnd" then [("HOME","/home/lnd")]
  else if backend = "cln" then [("HOME","/home/cln")]
  else if backend = "postgresql" then [("PGDATA","/var/lib/postgresql/data/pgdata")]
  else if backend = "cdk" then [("CDK_MINTD_WORK_DIR","/app/data"),("HOME","/app/data")]
  else if backend = "nutshell" then [("CASHU_DIR","/app/data"),("HOME","/app/data")]
  else if backend = "cocod-wallet" then
    [("COCOD_LISTEN_HOST","127.0.0.1"),("COCOD_LISTEN_PORT","62626"),("COCOD_URL","http://127.0.0.1:62626"),
      ("HOME","/wallet"),("PROOFSTORM_WALLET","\x7bcomponent_id\x7d")]
  else if backend = "nutshell-wallet" ∨ backend = "cdk-cli-wallet" then
    [("HOME","/wallet"),("PROOFSTORM_WALLET","\x7bcomponent_id\x7d")]
  else if backend = "workspace" then [("HOME","/workspace"),("PROOFSTORM_WORKSPACE","/workspace")]
  else []

/-! ### Contracts -/

def contractRules (backend : String) : List ConfigRule :=
  if backend = "cdk" then
    [.lessThanOrEqual "min_mint" "max_mint",.lessThanOrEqual "min_melt" "max_melt",
      .lessThanOrEqual "onchain_min_mint_sat" "onchain_max_mint_sat",
      .lessThanOrEqual "onchain_min_melt_sat" "onchain_max_melt_sat"]
  else if backend = "nutshell" then
    [.lessThanOrEqual "max_mint_sat" "max_balance_sat",.lessThanOrEqual "max_melt_sat" "max_balance_sat"]
  else []

/-- The entries of a map, in the order of their keys. -/
def ordered {α : Type} (entries : List (String × α)) : List (String × α) :=
  entries.insertionSort fun a b => a.1 ≤ b.1

def contract (id : String) (kind : ComponentKind) (configVersion : String)
    (configFields : List (String × ConfigFieldContract)) (servicePorts : List (String × Nat))
    (executionStateContract : String) : BackendContract :=
  { id := id
    kind := kind
    configVersion := configVersion
    configFields := ordered (configFields ++ managedConfigFields id ++ overrideField id ++ managementFields id)
    configRules := contractRules id
    servicePorts := servicePorts
    executionStateContract := executionStateContract
    executionMounts := executionMounts id
    executionEnvironment := executionEnvironment id }

/-- A contract whose managed settings are declared beside it. -/
def BackendContract.withManaged (contract : BackendContract) (fields : List (String × ConfigFieldContract)) :
    BackendContract :=
  { contract with configFields := ordered (contract.configFields ++ fields) }

def storageSizes : List String := ["1Gi","2Gi","5Gi","10Gi"]

def workspaceConfigFields : List (String × ConfigFieldContract) :=
  [("runtime_image",configField .string (.literal (.str ""))),
    ("storage_size",choice "1Gi" storageSizes),
    ("service_port",integer "0" 0 65535)]

def cdkMintInfoConfigFields : List (String × ConfigFieldContract) :=
  [("contact_email",text "" 0 254),
    ("contact_nostr_public_key",text "" 0 64),
    ("description",text "Proofstorm regtest CDK mint" 0 1000),
    ("description_long",text "" 0 10000),
    ("enable_info_page",boolean false),
    ("icon_url",text "" 0 2048),
    ("motd",text "" 0 1000),
    ("name",text "Proofstorm CDK mint" 1 100),
    ("tos_url",text "" 0 2048)]

/-- Lightning quote limits are raw amounts in the Lightning section's unit. -/
def cdkLightningLimitFields : List (String × ConfigFieldContract) :=
  [("max_melt",integer "500000" 1 10000000),
    ("max_mint",integer "500000" 1 10000000),
    ("min_melt",integer "1" 1 10000000),
    ("min_mint",integer "1" 1 10000000)]

/-- Embedded backends and their on-chain limits; linked backends are topology. -/
def cdkBackendSelectionFields : List (String × ConfigFieldContract) :=
  [("auth_max_blind_tokens",integer "50" 1 1000),
    ("embedded_lightning",choice "none" ["none","ldk-node"]),
    ("embedded_lightning_unit",text "sat" 1 64),
    ("embedded_onchain",choice "none" ["none","bdk"]),
    ("onchain_max_melt_sat",integer "1000000" 1 10000000),
    ("onchain_max_mint_sat",integer "1000000" 1 10000000),
    ("onchain_min_melt_sat",integer "1000" 1 10000000),
    ("onchain_min_mint_sat",integer "1000" 1 10000000)]

def cdkConfigFields : List (String × ConfigFieldContract) :=
  cdkMintInfoConfigFields ++
  [("allow_mint_quote_payment_override",boolean false),
    ("http_cache_tti_seconds",integer "60" 1 86400),
    ("http_cache_ttl_seconds",integer "60" 1 86400),
    ("input_fee_ppk",integer "100" 0 1000000),
    ("max_inputs",integer "1000" 1 10000),
    ("max_outputs",integer "1000" 1 10000),
    ("melt_quote_ttl_seconds",integer "120" 1 86400),
    ("mint_quote_ttl_seconds",integer "600" 1 86400),
    ("use_keyset_v2",boolean true)] ++
  cdkLightningLimitFields ++ cdkBackendSelectionFields

def nutshellConfigFields : List (String × ConfigFieldContract) :=
  [("auth_max_blind_tokens",integer "100" 1 100000),
    ("auth_rate_limit_per_minute",integer "5" 1 100000),
    ("contact_email",text "" 0 254),
    ("contact_nostr_public_key",text "" 0 128),
    ("database_lock_timeout_ms",integer "30000" 1000 300000),
    ("description",text "Proofstorm regtest Nutshell mint" 1 1000),
    ("description_long",text "" 0 10000),
    ("disable_melt",boolean false),
    ("disable_mint",boolean false),
    ("global_rate_limit_per_minute",integer "60" 1 100000),
    ("icon_url",text "" 0 2048),
    ("input_fee_ppk",integer "100" 0 1000000),
    ("lightning_fee_percent",number "1.0" 0 100),
    ("lightning_reserve_fee_min_sat",integer "2" 0 1000000),
    ("clnrest_enable_mpp",boolean true),
    ("lnd_enable_mpp",boolean true),
    ("max_balance_sat",integer "10000000" 1 100000000),
    ("max_melt_sat",integer "500000" 1 10000000),
    ("max_mint_sat",integer "500000" 1 10000000),
    ("max_request_length",integer "1000" 1 100000),
    ("max_secret_length",integer "1024" 1 1000000),
    ("max_witness_length",integer "1024" 1 1000000),
    ("melt_quote_ttl_seconds",integer "120" 0 86400),
    ("mint_quote_ttl_seconds",integer "600" 0 86400),
    ("motd",text "" 0 1000),
    ("name",text "Proofstorm Nutshell mint" 1 100),
    ("oidc_client_id",text "cashu-client" 1 255),
    ("oidc_discovery_url",text "" 0 2048),
    ("quote_backend_check_rate_limit_seconds",integer "10" 0 3600),
    ("rate_limit",boolean true),
    ("rate_limit_proxy_trust",boolean false),
    ("redis_cache_ttl_seconds",integer "604800" 1 31536000),
    ("regular_tasks_interval_seconds",integer "3600" 1 86400),
    ("tos_url",text "" 0 2048),
    ("transaction_rate_limit_per_minute",integer "20" 1 100000),
    ("watchdog_balance_check_interval_seconds",integer "60" 1 86400),
    ("watchdog_enabled",boolean false),
    ("websocket_read_timeout_seconds",integer "600" 1 86400)]

def bitcoinCore : BackendContract :=
  contract "bitcoin-core" .bitcoin "bitcoin-core/31/v1"
    [("fallback_fee",number "0.0002" 0 1),("txindex",boolean true)]
    [("p2p",18444),("rpc",18443),("zmq_block",28334),("zmq_tx",28335)] "proofstorm/bitcoin-core-state/v1"

def lnd : BackendContract :=
  contract "lnd" .lightning "lnd/0.20/v1" [nodeAlias] [("p2p",9735),("rest",8080),("rpc",10009)]
    "proofstorm/lnd-state/v1"

def cln : BackendContract :=
  contract "cln" .lightning "cln/26.06/v1" [nodeAlias] [("p2p",9735),("rest",3010)] "proofstorm/cln-state/v1"

def cdk : BackendContract :=
  contract "cdk" .mint "cdk-mintd/0.18/v1" cdkConfigFields [("http",3338)] "proofstorm/cdk-mint-state/v1"

def nutshell : BackendContract :=
  contract "nutshell" .mint "nutshell-mint/0.20/v1" nutshellConfigFields [("http",3338)]
    "proofstorm/nutshell-mint-state/v1"

def redis : BackendContract :=
  contract "redis" .database "redis/8.10/v1" [("maxmemory_mb",integer "64" 16 1024)] [("redis",6379)]
    "proofstorm/redis-cache-state/v1"

def keycloak : BackendContract :=
  contract "keycloak" .identityProvider "keycloak/25/v1" [("access_token_lifespan_seconds",integer "300" 60 3600)]
    [("http",8080)] "proofstorm/keycloak-oidc-state/v1"

def postgresql : BackendContract :=
  contract "postgresql" .database "postgresql/17/v1" [("storage_size",choice "1Gi" storageSizes)] [("postgres",5432)]
    "proofstorm/postgresql-state/v1"

def nutshellWallet : BackendContract :=
  contract "nutshell-wallet" .wallet "nutshell-wallet/0.20/v1" [] [] "proofstorm/nutshell-wallet-state/v1"

def cdkCliWallet : BackendContract :=
  contract "cdk-cli-wallet" .wallet "cdk-cli-wallet/0.18/v1" [] [] "proofstorm/cdk-cli-wallet-state/v1"

def cocodWallet : BackendContract :=
  contract "cocod-wallet" .wallet "cocod-wallet/0.0.17/v1" [] [] "proofstorm/cocod-wallet-state/v1"

def workspace : BackendContract :=
  contract "workspace" .workspace "workspace/0.1/v1" workspaceConfigFields [] "proofstorm/workspace-state/v1"

/-! ### LDK Server and its processor -/

def ldkServer : BackendContract :=
  { (contract "ldk-server" .lightning "ldk-server/0.1/v1" [nodeAlias] [("p2p",9735),("rpc",3536)]
      "proofstorm/ldk-server-state/v1").withManaged
      [policy "network",secret "credentials",topology "backend_endpoint"] with
    executionMounts := [mount "data" "/data" false .statefulData,mount "config" "/config" true .componentConfig]
    executionEnvironment := [("HOME","/data")] }

def ldkServerProcessor : BackendContract :=
  { (contract ldkProcessor .paymentProcessor "cdk-ldk-server-processor/0.1/v1"
      [("fee_reserve_min_sat",integer "2" 0 1000000),("fee_reserve_percent",number "0.01" 0 1),
        ("max_payment_scan_pages",integer "32" 1 1024)]
      [("grpc",50051)] "proofstorm/cdk-ldk-server-processor-state/v1").withManaged
      [policy "network",secret "credentials",topology "backend_endpoint"] with
    executionMounts := [mount "ldk-server" "/ldk-server" true (bolt11Data "ldk-server")] }

/-! ### The Bark stack -/

def barkProcessorContract : BackendContract :=
  { (contract barkProcessor .paymentProcessor "cdk-bark-processor/0.1/v1"
      [("event_poll_interval_ms",integer "5000" 1 60000),
        ("payment_methods",
          (configField .stringSet (.literal (Json.array (ProcessorProfile.bark.supportedMethods.map
            fun method => .str method.asStr)))).withEnumValues
            (ProcessorProfile.bark.supportedMethods.map PaymentMethod.asStr))]
      [("grpc",50051)] "proofstorm/cdk-bark-processor-state/v1").withManaged
      [policy "network",topology "backend_endpoint",policy "rpc_credentials",secret "mnemonic",secret "credentials",
        policy "data_dir"] with
    executionMounts := [mount "data" "/data" false .statefulData,mount "config" "/chain-rpc" true .componentConfig] }

def barkStackContract (id : String) (kind : ComponentKind) (configVersion state : String)
    (configFields : List (String × ConfigFieldContract)) (ports : List (String × Nat)) : BackendContract :=
  { (contract id kind configVersion configFields ports state).withManaged
      [policy "network",topology "backend_endpoint",policy "rpc_credentials",secret "credentials",policy "data_dir",
        policy "native_settings"] with
    executionMounts := [mount "data" "/data" false .statefulData]
    executionEnvironment := [("HOME","/data")] }

def barkServerContract : BackendContract :=
  barkStackContract barkServer .arkServer "bark-server/0.7/v1" "proofstorm/bark-server-state/v1"
    [("lightning_receive_base_fee_sat",integer "100" 0 1000000),("lightning_receive_ppm",integer "2000" 0 1000000)]
    [("rpc",3535)]

def clnHoldContract : BackendContract :=
  barkStackContract clnHold .lightning "cln-hold/26.06/v1" "proofstorm/cln-hold-state/v1" []
    [("grpc",9988),("hold",9292),("p2p",9735)]

/-! ### The Spark stack -/

/-- The most operators one Spark federation may run. -/
def sparkMaxOperators : Nat := 5

def sparkOperatorsContract : BackendContract :=
  { (contract sparkOperators .sparkServer "spark-operators/0.0/v1"
      [("operators",integer "3" 1 sparkMaxOperators),("threshold",integer "2" 1 sparkMaxOperators)]
      [("grpc",8535),("ssp",8536)] "proofstorm/spark-operators-state/v1").withManaged
      [policy "network",topology "backend_endpoint",policy "rpc_credentials",secret "credentials",
        policy "native_settings"] with
    configRules := [.lessThanOrEqual "threshold" "operators"] }

def openSspContract : BackendContract :=
  { (contract openSsp .sparkServer "open-ssp/0.1/v1"
      [("max_swap_total_sats",integer "1000000" 1 2100000000000000)] [("http",5000)]
      "proofstorm/open-ssp-state/v1").withManaged
      [policy "network",topology "backend_endpoint",secret "credentials",policy "data_dir",
        policy "native_settings"] with
    executionMounts :=
      [mount "data" "/data" false .statefulData,mount "ldk-server" "/ldk-server" true (bolt11Data "ldk-server")] }

def sparkProcessorContract : BackendContract :=
  { (contract sparkProcessor .paymentProcessor "cdk-spark-processor/0.1/v1" [] [("grpc",50051)]
      "proofstorm/cdk-spark-processor-state/v1").withManaged
      [policy "network",topology "backend_endpoint",secret "mnemonic",secret "credentials",policy "data_dir"] with
    executionMounts := [mount "data" "/data" false .statefulData] }

/-- `default_backend_registry`. -/
def defaultRegistry : Registry :=
  [bitcoinCore,lnd,cln,cdk,nutshell,redis,keycloak,postgresql,nutshellWallet,cdkCliWallet,cocodWallet,workspace,
    ldkServer,ldkServerProcessor,barkProcessorContract,barkServerContract,clnHoldContract,sparkOperatorsContract,
    openSspContract,sparkProcessorContract]

end Proofstorm.Publication
