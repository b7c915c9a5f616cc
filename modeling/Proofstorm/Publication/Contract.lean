import Proofstorm.Authoring.Cell
import Proofstorm.Outcome
import Proofstorm.Entries

/-!
The contract of a backend: the configuration fields it declares with their types,
bounds and defaults, the rules between them, and what its components serve and
mount. A component's configuration is checked against the contract as it was
authored, its omitted fields take their defaults, and the result is checked again.
-/
namespace Proofstorm.Publication
open Proofstorm.Core Validation

inductive ConfigDefault
  | literal (value : Json)
  | componentId
  deriving DecidableEq

inductive ConfigValueKind
  | boolean | number | integer | string
  /-- A non-empty array of distinct strings; `enumValues` constrains members. -/
  | stringSet
  | object
  deriving DecidableEq

inductive ConfigSettingClass
  | agentAuthorable | topologyDerived | generatedInstanceSecret | importedSecretReference | runtimePolicy
  deriving DecidableEq

def ConfigSettingClass.isAgentAuthorable : ConfigSettingClass → Bool
  | .agentAuthorable | .importedSecretReference => true
  | _ => false

structure ConfigFieldContract where
  valueKind : ConfigValueKind
  classification : ConfigSettingClass
  default : Option ConfigDefault
  enumValues : List Json
  minimum : Option ℚ
  maximum : Option ℚ
  minLength : Option Nat
  maxLength : Option Nat
  required : Bool
  deriving DecidableEq

inductive ConfigRule
  | mutuallyExclusive (fields : List String)
  | requiredWhen (field : String) (equals : Json) (requiredField : String)
  | lessThanOrEqual (minimumField maximumField : String)
  deriving DecidableEq

inductive MountSource
  | statefulData | componentPersistentData | componentConfig
  | linkedStatefulData (linkKind : LinkKind) (binding : DependencyBinding) (targetImplementation : String)
  deriving DecidableEq

inductive MountRequirement
  | required
  | atLeastOne (group : String)
  deriving DecidableEq

structure ExecutionMount where
  name : String
  mountPath : String
  readOnly : Bool
  requirement : MountRequirement
  source : MountSource
  deriving DecidableEq

/-- `config_fields` holds the entries of an ordered map, and so do the ports and the
    environment. -/
structure BackendContract where
  id : String
  kind : ComponentKind
  configVersion : String
  configFields : List (String × ConfigFieldContract)
  configRules : List ConfigRule
  servicePorts : List (String × Nat)
  executionStateContract : String
  executionMounts : List ExecutionMount
  executionEnvironment : List (String × String)
  deriving DecidableEq

/-! ### One value -/

def configDiagnostic (code : String) (component : ComponentSpec) (field message : String) : String :=
  s!"config_{code}: component {quoted component.id} field /config/{field}: {message}"

def ConfigValueKind.jsonType : ConfigValueKind → String
  | .boolean => "boolean"
  | .number => "number"
  | .integer => "integer"
  | .string => "string"
  | .stringSet => "array"
  | .object => "object"

def ConfigValueKind.isTypeOf : ConfigValueKind → Json → Bool
  | .boolean, .bool _ => true
  | .number, .num _ => true
  | .integer, value => value.asI64.isSome || value.asU64.isSome
  | .string, .str _ => true
  | .stringSet, .arr items => items.toList.all fun item => item.asStr.isSome
  | .object, .obj _ => true
  | _, _ => false

/-- The code and the message of what is wrong with a value of a field. -/
def ConfigFieldContract.violation (field : ConfigFieldContract) (value : Json) : Option (String × String) :=
  if !field.valueKind.isTypeOf value then some ("wrong_type",s!"expected {field.valueKind.jsonType}")
  else match value.asArray with
  | some items =>
    if items.isEmpty || (items.filterMap Json.asStr).dedup.length ≠ items.length then
      some ("string_set_violation","expected at least one value and no duplicates")
    else if !field.enumValues.isEmpty && !items.all field.enumValues.contains then
      some ("enum_violation","a member is not one of the declared enumeration values")
    else none
  | none =>
    if !field.enumValues.isEmpty && !field.enumValues.contains value then
      some ("enum_violation","value is not one of the declared enumeration values")
    else if value.asF64.any fun number => field.minimum.any (number < ·) || field.maximum.any (· < number) then
      some ("numeric_bound_violation","numeric value is outside the declared inclusive bounds")
    else if value.asStr.any fun text =>
        field.minLength.any (text.length < ·) || field.maxLength.any (· < text.length) then
      some ("string_length_violation","string length is outside the declared inclusive bounds")
    else none

/-- One entry of an authored configuration against the fields of the contract. -/
def BackendContract.entryViolation (contract : BackendContract) (component : ComponentSpec)
    (entry : String × Json) : Option String :=
  match contract.configFields.lookup entry.1 with
  | none =>
    some (configDiagnostic "unknown_field" component entry.1
      "field is not declared by the backend configuration contract")
  | some field =>
    if !field.classification.isAgentAuthorable then
      some (configDiagnostic "managed_field" component entry.1
        "field is derived or owned by Proofstorm and cannot be supplied by an agent")
    else (field.violation entry.2).map fun (code,message) => configDiagnostic code component entry.1 message

/-! ### Rules between fields -/

def ConfigRule.violation (component : ComponentSpec) : ConfigRule → Option String
  | .mutuallyExclusive fields =>
    let present := fields.filter fun field => (component.get field).isSome
    if 1 < present.length then
      some s!"config_mutually_exclusive: component {quoted component.id} fields [{listed (present.map quoted)}] cannot be set together"
    else none
  | .requiredWhen field equals requiredField =>
    if component.get field = some equals ∧ (component.get requiredField).isNone then
      some (configDiagnostic "conditional_required_field_missing" component requiredField
        s!"field is required when /config/{field} equals {String.ofList equals.write}")
    else none
  | .lessThanOrEqual minimumField maximumField =>
    match (component.get minimumField).bind Json.asU64, (component.get maximumField).bind Json.asU64 with
    | some minimum, some maximum =>
      if maximum < minimum then
        some s!"config_order_violation: component {quoted component.id} field /config/{minimumField} must be less than or equal to /config/{maximumField}"
      else none
    | _, _ => none

/-- Every violated rule is reported at once, so one edit can fix them all. -/
def validateConfigRules (component : ComponentSpec) (rules : List ConfigRule) : Except String Unit :=
  match rules.filterMap (ConfigRule.violation component) with
  | [] => .ok ()
  | violations => .error ("; ".intercalate violations)

/-! ### The configuration of a component -/

def isHexDigit (c : Char) : Bool := c.isDigit || ('a' ≤ c ∧ c ≤ 'f') || ('A' ≤ c ∧ c ≤ 'F')

/-- `text.split_once(separator)`. -/
def splitOnce (separator : List Char) : List Char → Option (List Char × List Char)
  | [] => if separator.isEmpty then some ([],[]) else none
  | c :: rest =>
    if separator.isPrefixOf (c :: rest) then some ([],(c :: rest).drop separator.length)
    else (splitOnce separator rest).map fun (before,after) => (c :: before,after)

/-- `workspace::is_runtime_image`: a fully qualified image pinned by its digest. -/
def isRuntimeImage (image : String) : Bool :=
  match splitOnce "@sha256:".toList image.toList with
  | none => false
  | some (repository,digest) =>
    let registry := (repository.splitOn '/').headD []
    (registry.contains '.' || registry.contains ':' || registry == "localhost".toList) &&
      image.utf8ByteSize ≤ 512 && repository.contains '/' &&
      !(repository.head? == some '/' || repository.head? == some '-') &&
      (repository.all fun c => isAlphanumeric c || "./:_-".toList.contains c) &&
      digest.length == 64 && digest.all isHexDigit

def isDiscoveryUrl (url : String) : Bool :=
  ("http://".toList.isPrefixOf url.toList || "https://".toList.isPrefixOf url.toList) &&
    "/.well-known/openid-configuration".toList.isSuffixOf url.toList

/-- What the workspace and the Nutshell backends ask of one text of theirs. -/
def BackendContract.textViolation (contract : BackendContract) (component : ComponentSpec) : Option String :=
  if contract.id = "workspace" ∧
      ((component.get "runtime_image").bind Json.asStr).any fun image => image ≠ "" ∧ ¬ isRuntimeImage image then
    some (configDiagnostic "image_digest_required" component "runtime_image"
      "must be empty for the built-in shell image or a fully qualified image pinned by SHA-256 digest")
  else if contract.id = "nutshell" ∧
      ((component.get "oidc_discovery_url").bind Json.asStr).any fun url => url ≠ "" ∧ ¬ isDiscoveryUrl url then
    some (configDiagnostic "oidc_discovery_url_invalid" component "oidc_discovery_url"
      "must be an HTTP(S) OpenID Connect discovery URL ending in /.well-known/openid-configuration")
  else none

/-- A required field that is absent, where the configuration is an effective one. -/
def missingField (component : ComponentSpec) (entry : String × ConfigFieldContract) : Option String :=
  if entry.2.classification.isAgentAuthorable && entry.2.required && (component.get entry.1).isNone then
    some (configDiagnostic "required_field_missing" component entry.1
      "required field is absent after default resolution")
  else none

def BackendContract.validateConfig (contract : BackendContract) (component : ComponentSpec) (effective : Bool) :
    Except String Unit :=
  match component.config.findSome? (contract.entryViolation component) with
  | some message => .error message
  | none =>
    match contract.textViolation component with
    | some message => .error message
    | none =>
      match if effective then contract.configFields.findSome? (missingField component) else none with
      | some message => .error message
      | none => validateConfigRules component contract.configRules

/-! ### Defaults -/

def resolveConfigDefault (componentId : String) : ConfigDefault → Json
  | .literal value => value
  | .componentId => .str componentId

/-- The default that a field resolves to where it is omitted. -/
def ConfigFieldContract.resolved (field : ConfigFieldContract) (componentId : String) : Option Json :=
  if field.classification.isAgentAuthorable then field.default.map (resolveConfigDefault componentId) else none

/-- The defaults of the fields that have one. -/
def resolvedDefaults (componentId : String) (fields : List (String × ConfigFieldContract)) : List (String × Json) :=
  fields.filterMap fun (name,field) => (field.resolved componentId).map fun value => (name,value)

/-- A configuration with the defaults of the fields that it omits. -/
def fillDefaults (componentId : String) (fields : List (String × ConfigFieldContract))
    (config : List (String × Json)) : List (String × Json) :=
  Entries.defaults config (resolvedDefaults componentId fields)

def BackendContract.effective (contract : BackendContract) (component : ComponentSpec) : ComponentSpec :=
  { component with config := fillDefaults component.id contract.configFields component.config }

/-- The installed contracts. -/
abbrev Registry : Type := List BackendContract

def Registry.require (registry : Registry) (id : String) : Except String BackendContract :=
  Proofstorm.require (registry.find? (·.id == id)) s!"backend_registry_missing: backend {quoted id} is not registered"

/-- Resolve omitted component configuration without mutating explicitly requested
    values. -/
def Registry.resolveEffectiveComponent (registry : Registry) (component : ComponentSpec) :
    Except String ComponentSpec := do
  let contract ← registry.require component.implementation
  ensure (contract.kind = component.kind)
    s!"backend_kind_mismatch: component {quoted component.id} kind {component.kind.name} does not match backend {quoted contract.id} kind {contract.kind.name}"
  contract.validateConfig component false
  contract.validateConfig (contract.effective component) true
  return contract.effective component

/-- `validate_component_config`: only the agent-authored fields. -/
def Registry.validateComponentConfig (registry : Registry) (component : ComponentSpec) : Except String Unit := do
  let contract ← registry.require component.implementation
  contract.validateConfig component false

end Proofstorm.Publication
