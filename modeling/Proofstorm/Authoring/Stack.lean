import Proofstorm.Authoring.Links

/-!
Dependency checks that the Bark and Spark stacks share: each stack component
needs exactly one typed link per requirement and no other backend links.
-/
namespace Proofstorm.Validation
open Proofstorm.Core

/-! ### Catalog identities -/

def ldkProcessor : String := "cdk-ldk-server-processor"
def barkProcessor : String := "cdk-bark-processor"
def barkServer : String := "bark-server"
def clnHold : String := "cln-hold"
def sparkProcessor : String := "cdk-spark-processor"
def sparkOperators : String := "spark-operators"
def openSsp : String := "open-ssp"

/-! ### Requirements -/

/-- One backend link a stack component needs, and the component it must reach. -/
structure Requirement where
  linkKind : LinkKind
  targetKind : ComponentKind
  targetImpl : String
  /-- The binding the link must carry, as shown in issue messages. -/
  label : String
  binding : DependencyBinding → Bool

def chainRequirement : Requirement :=
  { linkKind := .chainBackend
    targetKind := .bitcoin
    targetImpl := "bitcoin-core"
    label := "chain/regtest"
    binding := fun binding => binding = .chain .regtest }

def databaseRequirement : Requirement :=
  { linkKind := .databaseBackend
    targetKind := .database
    targetImpl := "postgresql"
    label := "database/primary"
    binding := DependencyBinding.binds .primary }

/-- A `bolt11/sat` payment binding. -/
def bolt11Sat (binding : DependencyBinding) : Bool := binding = .payment .bolt11 "sat"

/-- The links of one kind that a component has. -/
def outgoing (cell : CellSpec) (component : ComponentSpec) (kind : LinkKind) : List LinkSpec :=
  cell.links.filter fun link => link.from == component.id && link.kind == kind

/-- The target of the component's only link of this kind, when that link carries
    the required binding and reaches the required implementation. -/
def Requirement.resolve (requirement : Requirement) (cell : CellSpec) (component : ComponentSpec) :
    Option ComponentSpec :=
  match outgoing cell component requirement.linkKind with
  | [link] =>
    if link.binding.any requirement.binding then
      cell.components.find? fun target =>
        target.id == link.to && target.kind == requirement.targetKind &&
          target.implementation == requirement.targetImpl
    else none
  | _ => none

def unexpectedDependency (component : ComponentSpec) (path stack : String) (requirements : List Requirement)
    (link : LinkSpec) : List ValidationIssue :=
  issue (link.from == component.id && link.kind.isBackend && !requirements.any (·.linkKind == link.kind))
    s!"{stack}_unexpected_dependency" path
    s!"{component.implementation} does not use a {link.kind.name} dependency ({quoted link.id})"

/-- Checks one stack component's kind, its required links and that it has no
    other backend links; `stack` names the stack in issue codes. -/
def validateRequirements (cell : CellSpec) (component : ComponentSpec) (path stack : String) (kind : ComponentKind)
    (requirements : List Requirement) : List ValidationIssue :=
  issue (component.kind ≠ kind) s!"{stack}_component_kind_mismatch" path
    s!"{component.implementation} requires component kind {kind.name}" ++
  (requirements.flatMap fun requirement =>
    issue (requirement.resolve cell component).isNone s!"{stack}_dependency_required" path
      s!"{component.implementation} requires exactly one {requirement.linkKind.name} link with {requirement.label} binding to {requirement.targetImpl}") ++
  cell.links.flatMap (unexpectedDependency component path stack requirements)

/-! ### Bark -/

def arkRequirement : Requirement :=
  { linkKind := .arkBackend
    targetKind := .arkServer
    targetImpl := barkServer
    label := "ark/regtest"
    binding := fun binding => binding = .ark .regtest }

def barkLightning : Requirement :=
  { linkKind := .paymentBackend
    targetKind := .lightning
    targetImpl := clnHold
    label := "bolt11/sat"
    binding := bolt11Sat }

/-- The component that a Bark component shares its chain with. -/
def barkDownstream (cell : CellSpec) (component : ComponentSpec) : Option ComponentSpec :=
  if component.implementation = barkProcessor then arkRequirement.resolve cell component
  else if component.implementation = barkServer then barkLightning.resolve cell component
  else none

def validateBarkChain (cell : CellSpec) (component : ComponentSpec) (path : String) : List ValidationIssue :=
  match chainRequirement.resolve cell component with
  | none => []
  | some chain =>
    issue ((chain.get "txindex").any (· ≠ .bool true)) "bark_txindex_required" path
      s!"Bark requires txindex=true on Bitcoin component {quoted chain.id}" ++
    match barkDownstream cell component with
    | none => []
    | some downstream =>
      match chainRequirement.resolve cell downstream with
      | none => []
      | some other =>
        issue (chain.id ≠ other.id) "bark_shared_chain_required" path
          s!"{quoted component.id} and {quoted downstream.id} must use the same Bitcoin component; found {quoted chain.id} and {quoted other.id}"

/-- What the Bark stack asks of an implementation. -/
def barkRequirements (implementation : String) : Option (ComponentKind × List Requirement) :=
  if implementation = barkProcessor then some (.paymentProcessor,[chainRequirement,arkRequirement])
  else if implementation = barkServer then
    some (.arkServer,[chainRequirement,databaseRequirement,barkLightning])
  else if implementation = clnHold then some (.lightning,[chainRequirement])
  else none

def validateBark (cell : CellSpec) (index : Nat) (component : ComponentSpec) : List ValidationIssue :=
  match barkRequirements component.implementation with
  | none => []
  | some (kind,requirements) =>
    validateRequirements cell component s!"/components/{index}" "bark" kind requirements ++
      validateBarkChain cell component s!"/components/{index}"

def validateBarkTopology (cell : CellSpec) : List ValidationIssue :=
  enumerate (validateBark cell) cell.components

/-! ### Spark -/

def sparkRegtest (binding : DependencyBinding) : Bool := binding = .spark .regtest

def operatorsRequirement : Requirement :=
  { linkKind := .sparkBackend
    targetKind := .sparkServer
    targetImpl := sparkOperators
    label := "spark/regtest"
    binding := sparkRegtest }

def sspRequirement : Requirement :=
  { linkKind := .sparkBackend
    targetKind := .sparkServer
    targetImpl := openSsp
    label := "spark/regtest"
    binding := sparkRegtest }

def sparkLightning : Requirement :=
  { linkKind := .paymentBackend
    targetKind := .lightning
    targetImpl := "ldk-server"
    label := "bolt11/sat"
    binding := bolt11Sat }

/-- The longest database name an operators link may use: operator `i` creates
    `{name}_{i}` and `{name}_{i}_ephemeral`, and PostgreSQL identifiers end at 63
    bytes. -/
def sparkDatabaseNameLimit : Nat := 63 - "_4_ephemeral".length

def validateDatabaseNames (cell : CellSpec) (operators : ComponentSpec) (path : String) : List ValidationIssue :=
  ((outgoing cell operators .databaseBackend).filterMap LinkSpec.databaseName).flatMap fun name =>
    issue (sparkDatabaseNameLimit < name.utf8ByteSize) "spark_database_name_too_long" path
      s!"operators create {name}_<n>_ephemeral databases; keep the database name at most {sparkDatabaseNameLimit} bytes"

/-- The chain of the component that meets a requirement. -/
def chainOf (requirement : Requirement) (cell : CellSpec) (component : ComponentSpec) : Option ComponentSpec :=
  (requirement.resolve cell component).bind (chainRequirement.resolve cell)

/-- The operators watch one chain and the SSP's Lightning node pays on one chain;
    deposits and channels only meet if both are the same node. -/
def validateSharedChain (cell : CellSpec) (ssp : ComponentSpec) (path : String) : List ValidationIssue :=
  match chainOf operatorsRequirement cell ssp, chainOf sparkLightning cell ssp with
  | some operators, some lightning =>
    issue (operators.id ≠ lightning.id) "spark_shared_chain_required" path
      s!"the Spark operators and {quoted ssp.id}'s Lightning node must use the same Bitcoin component; found {quoted operators.id} and {quoted lightning.id}"
  | _, _ => []

/-- What the Spark stack asks of an implementation. -/
def sparkRequirements (implementation : String) : Option (ComponentKind × List Requirement) :=
  if implementation = sparkProcessor then some (.paymentProcessor,[sspRequirement])
  else if implementation = openSsp then some (.sparkServer,[operatorsRequirement,sparkLightning])
  else if implementation = sparkOperators then some (.sparkServer,[chainRequirement,databaseRequirement])
  else none

def validateSpark (cell : CellSpec) (index : Nat) (component : ComponentSpec) : List ValidationIssue :=
  match sparkRequirements component.implementation with
  | none => []
  | some (kind,requirements) =>
    validateRequirements cell component s!"/components/{index}" "spark" kind requirements ++
      if component.implementation = openSsp then validateSharedChain cell component s!"/components/{index}"
      else if component.implementation = sparkOperators then
        validateDatabaseNames cell component s!"/components/{index}"
      else []

def validateSparkTopology (cell : CellSpec) : List ValidationIssue :=
  enumerate (validateSpark cell) cell.components

end Proofstorm.Validation
