import Mathlib.Algebra.GroupWithZero.Nat
import Proofstorm.Authoring.Payments

/-!
Native config overrides: mint settings Proofstorm does not model. Only keys that
Proofstorm neither sets nor manages are accepted, and only where the cell opts in.
-/
namespace Proofstorm.Validation
open Proofstorm.Core

/-- Nutshell settings Proofstorm sets or manages, with the config field each comes
    from. A trailing `_` reserves every name with that prefix. -/
def nutshellEnv : List (String × String) :=
  [("CASHU_DIR","data_directory"),("LIGHTNING_FEE_PERCENT","lightning_fee_percent"),
   ("LIGHTNING_RESERVE_FEE_MIN","lightning_reserve_fee_min_sat"),("MELT_QUOTE_TTL","melt_quote_ttl_seconds"),
   ("MINT_AUTH_DATABASE","authentication_database"),("MINT_AUTH_DATABASE_PASSWORD","authentication_database"),
   ("MINT_AUTH_MAX_BLIND_TOKENS","auth_max_blind_tokens"),("MINT_AUTH_OICD_CLIENT_ID","oidc_client_id"),
   ("MINT_AUTH_OICD_DISCOVERY_URL","oidc_discovery_url"),
   ("MINT_AUTH_RATE_LIMIT_PER_MINUTE","auth_rate_limit_per_minute"),("MINT_BOLT11_DISABLE_MELT","disable_melt"),
   ("MINT_BOLT11_DISABLE_MINT","disable_mint"),("MINT_CLNREST_ENABLE_MPP","clnrest_enable_mpp"),
   ("MINT_DATABASE","database"),("MINT_DATABASE_LOCK_TIMEOUT","database_lock_timeout_ms"),
   ("MINT_DATABASE_PASSWORD","database"),("MINT_DERIVATION_PATH","derivation_path"),
   ("MINT_DERIVATION_PATH_LIST","derivation_path"),("MINT_FORWARDED_ALLOW_IPS","forwarded_allow_ips"),
   ("MINT_GLOBAL_RATE_LIMIT_PER_MINUTE","global_rate_limit_per_minute"),("MINT_INFO_CONTACT","contact_email"),
   ("MINT_INFO_DESCRIPTION","description"),("MINT_INFO_DESCRIPTION_LONG","description_long"),
   ("MINT_INFO_ICON_URL","icon_url"),("MINT_INFO_MOTD","motd"),("MINT_INFO_NAME","name"),
   ("MINT_INFO_TOS_URL","tos_url"),("MINT_INFO_URLS","public_url"),("MINT_INPUT_FEE_PPK","input_fee_ppk"),
   ("MINT_LIGHTNING_BACKEND","backend_kind"),("MINT_LISTEN_HOST","listen_address"),
   ("MINT_LISTEN_PORT","listen_address"),("MINT_LND_ENABLE_MPP","lnd_enable_mpp"),
   ("MINT_MAX_BALANCE","max_balance_sat"),("MINT_MAX_MELT_BOLT11_SAT","max_melt_sat"),
   ("MINT_MAX_MINT_BOLT11_SAT","max_mint_sat"),("MINT_MAX_REQUEST_LENGTH","max_request_length"),
   ("MINT_MAX_SECRET_LENGTH","max_secret_length"),("MINT_MAX_WITNESS_LENGTH","max_witness_length"),
   ("MINT_PAYMENT_BACKENDS","backend_kind"),("MINT_PRIVATE_KEY","mint_private_key"),
   ("MINT_QUOTE_BACKEND_CHECK_RATE_LIMIT","quote_backend_check_rate_limit_seconds"),
   ("MINT_QUOTE_TTL","mint_quote_ttl_seconds"),("MINT_RATE_LIMIT","rate_limit"),
   ("MINT_RATE_LIMIT_PROXY_TRUST","rate_limit_proxy_trust"),("MINT_REDIS_CACHE_TTL","redis_cache_ttl_seconds"),
   ("MINT_REGULAR_TASKS_INTERVAL_SECONDS","regular_tasks_interval_seconds"),
   ("MINT_SEED_DECRYPTION_KEY","mint_private_key"),
   ("MINT_TRANSACTION_RATE_LIMIT_PER_MINUTE","transaction_rate_limit_per_minute"),
   ("MINT_WATCHDOG_BALANCE_CHECK_INTERVAL_SECONDS","watchdog_balance_check_interval_seconds"),
   ("MINT_WATCHDOG_ENABLED","watchdog_enabled"),("MINT_WEBSOCKET_READ_TIMEOUT","websocket_read_timeout_seconds"),
   ("HTTP_PROXY","tor"),("SOCKS_HOST","tor"),("SOCKS_PORT","tor"),("SOCKS_PROXY","tor"),("TOR","tor"),
   ("MINT_AUTH_OICD_","authentication"),("MINT_BACKEND_","backend_kind"),
   ("MINT_CLNREST_","lightning_backend_credentials"),("MINT_LND_","lightning_backend_credentials"),
   ("MINT_REDIS_CACHE_","redis_cache"),("MINT_REQUIRE_","authentication"),("MINT_RPC_SERVER_","management_rpc"),
   ("PROOFSTORM_","")]

/-- CDK `config.toml` keys and whole tables Proofstorm writes or manages. -/
def cdkToml : List (String × String) :=
  [("info.url","public_url"),("info.listen_host","listen_address"),("info.listen_port","listen_address"),
   ("info.mnemonic","mint_mnemonic"),("info.signatory_url","mint_mnemonic"),("info.signatory_certs","mint_mnemonic"),
   ("info.enable_info_page","enable_info_page"),("info.input_fee_ppk","input_fee_ppk"),
   ("info.use_keyset_v2","use_keyset_v2"),("info.quote_ttl.mint_ttl","mint_quote_ttl_seconds"),
   ("info.quote_ttl.melt_ttl","melt_quote_ttl_seconds"),("info.http_cache.backend",""),
   ("info.http_cache.ttl","http_cache_ttl_seconds"),("info.http_cache.tti","http_cache_tti_seconds"),
   ("mint_info.name","name"),("mint_info.description","description"),
   ("mint_info.description_long","description_long"),("mint_info.motd","motd"),("mint_info.icon_url","icon_url"),
   ("mint_info.contact_email","contact_email"),("mint_info.contact_nostr_public_key","contact_nostr_public_key"),
   ("mint_info.tos_url","tos_url"),("limits.max_inputs","max_inputs"),("limits.max_outputs","max_outputs"),
   ("mint_management_rpc","management_rpc"),("payment_backend","payment_backends"),("fake_wallet","payment_backends"),
   ("grpc_processor","lightning_backend_endpoint"),("lnd","lightning_backend_endpoint"),
   ("cln","lightning_backend_endpoint"),("ldk_node","embedded_lightning"),("onchain","embedded_onchain"),
   ("bdk","embedded_onchain"),("database","database_engine"),("auth_database","authentication_database"),
   ("auth","authentication"),("signatory","mint_mnemonic")]

/-- How one mint implementation takes overrides. -/
structure Overrides where
  field : String
  /-- Environment names, matched ignoring case; otherwise dotted TOML paths. -/
  env : Bool
  reserved : List (String × String)
  deriving DecidableEq

def overrides (implementation : String) : Option Overrides :=
  if implementation = "nutshell" then some ⟨"native_env",true,nutshellEnv⟩
  else if implementation = "cdk" then some ⟨"native_toml",false,cdkToml⟩
  else none

/-- `text.to_ascii_uppercase()`. -/
def asciiUppercase (text : List Char) : List Char :=
  text.map fun c => if isLowercase c then Char.ofNat (c.toNat - 32) else c

/-- `inner` lies in the table that `outer` names. -/
def inside (outer inner : List Char) : Bool := (outer ++ ['.']).isPrefixOf inner

/-- The config field Proofstorm sets `key` from ("" for a constant), or nothing when
    an override may use it. -/
def Overrides.reservedBy (overrides : Overrides) (key : String) : Option String :=
  (overrides.reserved.find? fun (name,_) =>
    let (name,key) := (name.toList,key.toList)
    if overrides.env then
      let upper := asciiUppercase key
      upper == name || (name.getLast? == some '_' && name.isPrefixOf upper)
    else key == name || inside name key || inside key name).map Prod.snd

mutual
/-- The dotted paths of the leaves of a document; an empty table is a leaf, except
    for the document itself. -/
def leafPaths (path : List String) : Json → List String
  | .obj .nil => if path.isEmpty then [] else [".".intercalate path]
  | .obj fields => leafFields path fields
  | _ => [".".intercalate path]
def leafFields (path : List String) : Fields → List String
  | .nil => []
  | .cons key value tail => leafPaths (path ++ [key]) value ++ leafFields path tail
end

/-- The override keys a component sets: env names, or dotted TOML leaf paths. -/
def overrideKeys (component : ComponentSpec) : List String :=
  match (overrides component.implementation).bind fun overrides => component.get overrides.field with
  | none => []
  | some value => (leafPaths [] value).insertionSort (· ≤ ·)

mutual
def containsNull : Json → Bool
  | .null => true
  | .arr items => itemsContainNull items
  | .obj fields => fieldsContainNull fields
  | _ => false
def itemsContainNull : Items → Bool
  | .nil => false
  | .cons head tail => containsNull head || itemsContainNull tail
def fieldsContainNull : Fields → Bool
  | .nil => false
  | .cons _ value tail => containsNull value || fieldsContainNull tail
end

def isEnvName (key : String) : Bool :=
  !key.toList.isEmpty && key.utf8ByteSize ≤ 128 &&
    (key.toList.zipIdx.all fun (c,i) => c == '_' || isLowercase c || ('A' ≤ c ∧ c ≤ 'Z') || (0 < i && c.isDigit))

/-- `workspace::validate_env`. -/
def validateEnv (env : List (String × String)) : Option String :=
  if 64 < env.length then some "environment has more than 64 variables"
  else if env.any fun (key,_) => !isEnvName key then
    some "environment names must match [A-Za-z_][A-Za-z0-9_]* within 128 bytes"
  else if env.any fun (key,_) => "PROOFSTORM_".toList.isPrefixOf key.toList then
    some "PROOFSTORM_ environment variables are reserved"
  else if env.any fun (_,value) => value.toList.contains '\x00' || 4096 < value.utf8ByteSize then
    some "environment values must be at most 4096 bytes without NUL"
  else if 8192 < (env.map fun (key,value) => key.utf8ByteSize + value.utf8ByteSize).sum then
    some "environment exceeds 8192 bytes"
  else none

def maxTomlBytes : Nat := 8192

/-- What is wrong with the shape of an override value. -/
def Overrides.shape (overrides : Overrides) (value : Json) : Option String :=
  match value.asObject with
  | none => some (if overrides.env then "expected an object of string values" else "expected an object of TOML keys")
  | some table =>
    if overrides.env then
      match table.mapM fun (key,value) => value.asStr.map fun text => (key,text) with
      | none => some "expected an object of string values"
      | some env => validateEnv env
    else if table.any fun (_,value) => containsNull value then some "TOML has no null; omit the key instead"
    else if maxTomlBytes < value.byteLength then some s!"exceeds {maxTomlBytes} bytes as JSON"
    else none

/-- A dotted key as the tail of a field path. -/
def pointer (key : String) : String :=
  "/".intercalate ((key.toList.splitOn '.').map fun segment =>
    .ofList (segment.flatMap fun c => if c = '~' then ['~','0'] else if c = '/' then ['~','1'] else [c]))

/-- Plan-time checks: opt-in, shape, and keys Proofstorm sets. -/
def validateNative (cell : CellSpec) (index : Nat) (component : ComponentSpec) : List ValidationIssue :=
  match overrides component.implementation with
  | none => []
  | some overrides =>
    match component.get overrides.field with
    | none => []
    | some value =>
      let path := s!"/components/{index}/config/{overrides.field}"
      issue (!cell.policy.allow.contains .mintNativeConfigOverride) "native_config_override_not_allowed" path
        "passes settings Proofstorm does not verify; add \"mint.native_config_override\" to policy.allow to enable it" ++
      match overrides.shape value with
      | some message => [⟨"native_config_override_invalid",path,message⟩]
      | none =>
        (overrideKeys component).flatMap fun key =>
          match overrides.reservedBy key with
          | none => []
          | some field =>
            [⟨"native_config_override_managed",s!"{path}/{pointer key}",
              if field = "" then "Proofstorm sets this" else s!"Proofstorm sets this from /config/{field}"⟩]

def validateNativeSettings (cell : CellSpec) : List ValidationIssue :=
  enumerate (validateNative cell) cell.components

/-! ### The whole cell -/

def apiVersion : String := "proofstorm/v1alpha1"

/-- `validate_cell`. -/
def validateCell (cell : CellSpec) : ValidationReport :=
  .fromIssues
    (issue (cell.apiVersion ≠ apiVersion) "unsupported_api_version" "/api_version" s!"expected {quoted apiVersion}" ++
      issue (!isSlug cell.name) "invalid_cell_name" "/name" "must be a lowercase kebab-case identifier of 1..=63 bytes" ++
      validateLimits cell ++ validateComponents cell ++ validateLinks cell ++ validateAuthenticationTopology cell ++
      validateProcessorTopology cell ++ validateBarkTopology cell ++ validateSparkTopology cell ++
      validateCdkTopology cell ++ validatePaymentOverride cell ++ validateNativeSettings cell)

end Proofstorm.Validation
