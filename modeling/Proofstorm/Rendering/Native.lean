import Proofstorm.Core.Reading
import Proofstorm.Ordered
import Proofstorm.Outcome
import Proofstorm.Authoring.Cell

/-!
Native overrides in what a mint is rendered with: `native_toml` merged into the
configuration of a CDK mint, `native_env` added to the environment of a Nutshell
mint. Validation refused what Proofstorm sets; rendering refuses it again.
-/
namespace Proofstorm.Rendering
open Proofstorm.Core Validation

/-! ### TOML documents -/

mutual
/-- `toml_edit::Item`, of a key that is there. -/
inductive TomlItem (V F A : Type)
  | value (value : V)
  | table (form : F) (entries : TomlTable V F A)
  | arrayOfTables (tables : A)
/-- The entries of `toml_edit::Table`, in their order. -/
inductive TomlTable (V F A : Type)
  | nil
  | cons (key : String) (item : TomlItem V F A) (rest : TomlTable V F A)
end

namespace TomlTable

variable {V F A : Type}

/-- `Table::get_mut`. -/
def get (key : String) : TomlTable V F A → Option (TomlItem V F A)
  | .nil => none
  | .cons other item rest => if other = key then some item else rest.get key

/-- `Table::insert`. -/
def insert (key : String) (item : TomlItem V F A) : TomlTable V F A → TomlTable V F A
  | .nil => .cons key item .nil
  | .cons other old rest => if other = key then .cons other item rest else .cons other old (rest.insert key item)

@[simp] theorem get_nil (key : String) : (TomlTable.nil : TomlTable V F A).get key = none := rfl

theorem get_cons (old : String) (here : TomlItem V F A) (rest : TomlTable V F A) (key : String) :
    (TomlTable.cons old here rest).get key = if old = key then some here else rest.get key := rfl

theorem get_insert (key : String) (item : TomlItem V F A) (other : String) :
    ∀ table : TomlTable V F A, (table.insert key item).get other = if other = key then some item else table.get other
  | .nil => by
    rw [insert,get_cons,get_nil]
    simp only [eq_comm]
  | .cons old here rest => by
    have ih := get_insert key item other rest
    rw [insert]
    by_cases found : old = key
    · subst found
      rw [if_pos rfl,get_cons,get_cons]
      by_cases same : old = other
      · simp [same]
      · simp [same,Ne.symm same]
    · rw [if_neg found,get_cons,get_cons,ih]
      by_cases same : old = other
      · subst same
        simp [found]
      · simp [same]

end TomlTable

/-- The library that reads, edits and writes documents. What is said of a table
    besides its entries is its `Form`: formatting, position, and whether it is
    written through its entries alone, as an implicit or a dotted table is. -/
class TomlEdit where
  Value : Type
  Form : Type
  ArrayOfTables : Type
  /-- A value apart from its formatting. -/
  Data : Type
  parse : String → Except String (Form × TomlTable Value Form ArrayOfTables)
  print : Form → TomlTable Value Form ArrayOfTables → String
  /-- `Serialize::serialize(value, ValueSerializer::new())`. -/
  serialize : Json → Except String Value
  /-- `Table::new`. -/
  created : Form
  hidden : Form → Bool
  data : Value → Data
  tables : ArrayOfTables → Data
  /-- The JSON value that the data is equal to, if there is one. -/
  json : Data → Option Json

abbrev DocumentItem [TomlEdit] : Type := TomlItem TomlEdit.Value TomlEdit.Form TomlEdit.ArrayOfTables
abbrev DocumentTable [TomlEdit] : Type := TomlTable TomlEdit.Value TomlEdit.Form TomlEdit.ArrayOfTables

/-! ### The merge -/

inductive AdapterError
  | invalidPlan (message : String)
  deriving DecidableEq

/-- The dotted path of a key below `path`. -/
def below (path key : String) : String := if path = "" then key else path ++ "." ++ key

mutual
/-- `merge_toml_table`. -/
def mergeTomlTable [TomlEdit] (table : DocumentTable) (path : String) : Fields → Except String DocumentTable
  | .nil => .ok table
  | .cons key value rest => do
    let table ← mergeTomlEntry table (below path key) key value
    mergeTomlTable table path rest
/-- One key of the overrides. -/
def mergeTomlEntry [TomlEdit] (table : DocumentTable) (path key : String) : Json → Except String DocumentTable
  | .obj inner =>
    match table.get key with
    | some (.table form existing) => do
      let merged ← mergeTomlTable existing path inner
      pure (table.insert key (.table form merged))
    | some _ => .error (path ++ " is already set")
    | none => do
      let made ← mergeTomlTable .nil path inner
      pure (table.insert key (.table TomlEdit.created made))
  | value =>
    match table.get key with
    | some _ => .error (path ++ " is already set")
    | none => do
      let item ← (TomlEdit.serialize value).mapError fun error => path ++ ": " ++ error
      pure (table.insert key (.value item))
end

/-- `merge_native_toml`. Without overrides the rendered text stays as it is. -/
def mergeNativeToml [TomlEdit] (componentId rendered : String) (overrides : BTreeMap String Json) :
    Except AdapterError String :=
  let invalid := fun message => AdapterError.invalidPlan ("component " ++ quoted componentId ++ " native_toml " ++ message)
  if overrides.toList = [] then .ok rendered
  else do
    let (form,table) ← (TomlEdit.parse rendered).mapError fun error => invalid ("cannot parse the rendered config: " ++ error)
    let merged ← (mergeTomlTable table "" (.ofList overrides.toList)).mapError invalid
    pure (TomlEdit.print form merged)

/-! ### The environment -/

/-- `str::eq_ignore_ascii_case`. -/
def eqIgnoreAsciiCase (a b : String) : Bool := asciiUppercase a.toList == asciiUppercase b.toList

/-- The names of the environment entries of the container. -/
def entryNames (env : List Json) : List String := env.filterMap fun entry => (entry.get "name").bind Json.asStr

/-- One name of the overrides. Nutshell reads settings ignoring case. -/
def addNativeEnv (componentId : String) (env : List Json) (environment : BTreeMap String String)
    (entry : String × String) : Except AdapterError (BTreeMap String String) :=
  if (environment.keys ++ entryNames env).any (eqIgnoreAsciiCase · entry.1) then
    .error (.invalidPlan ("component " ++ quoted componentId ++ " native_env " ++ quoted entry.1 ++ " is already set"))
  else .ok (environment.insert entry.1 entry.2)

/-- `extend_native_env`. -/
def extendNativeEnv (componentId : String) (nativeEnv environment : BTreeMap String String) (env : List Json) :
    Except AdapterError (BTreeMap String String) :=
  nativeEnv.toList.foldlM (addNativeEnv componentId env) environment

/-! ### The overrides of a component -/

/-- `optional_config_object`, empty where the field is absent. -/
def optionalConfigObject {ν : Type} (component : ComponentSpec) (name : String) (read : Json → Option ν) :
    Except String (BTreeMap String ν) :=
  let refused := "backend_typed_config_invalid: component " ++ quoted component.id ++ " field /config/" ++ name ++
    " was not normalized to its declared native type"
  match component.get name with
  | none => .ok ∅
  | some (.obj fields) =>
    match fields.toList.mapM fun (key,value) => (read value).map fun value => (key,value) with
    | some pairs => .ok (.collect pairs)
    | none => .error refused
  | some _ => .error refused

/-- `native_toml` of the configuration of a CDK mint. -/
def nativeToml (component : ComponentSpec) : Except String (BTreeMap String Json) :=
  optionalConfigObject component "native_toml" some

/-- `native_env` of the configuration of a Nutshell mint. -/
def nativeEnv (component : ComponentSpec) : Except String (BTreeMap String String) :=
  optionalConfigObject component "native_env" Json.asStr

end Proofstorm.Rendering
