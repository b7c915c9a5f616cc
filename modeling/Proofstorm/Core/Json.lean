import Mathlib.Data.String.Basic

/-!
JSON documents as `serde_json` holds them. `arr` and `obj` have list types of
their own, so that functions over a document recurse along its structure.
Numbers keep their text: the store compares and copies them only.
-/
namespace Proofstorm.Core

mutual
inductive Json
  | null
  | bool (value : Bool)
  | num (text : String)
  | str (text : String)
  | arr (items : Items)
  | obj (fields : Fields)
inductive Items
  | nil
  | cons (head : Json) (tail : Items)
/-- The entries of an object, in the order of the map that holds them. -/
inductive Fields
  | nil
  | cons (key : String) (value : Json) (tail : Fields)
end

deriving instance DecidableEq for Json, Items, Fields

def Items.ofList : List Json → Items
  | [] => .nil
  | head :: tail => .cons head (ofList tail)

def Fields.ofList : List (String × Json) → Fields
  | [] => .nil
  | (key,value) :: tail => .cons key value (ofList tail)

def Fields.toList : Fields → List (String × Json)
  | .nil => []
  | .cons key value tail => (key,value) :: tail.toList

namespace Json

def array (items : List Json) : Json := .arr (.ofList items)

def object (fields : List (String × Json)) : Json := .obj (.ofList fields)

/-- `Value::get` of an object. -/
def get (value : Json) (key : String) : Option Json :=
  match value with
  | .obj fields => (fields.toList.find? (fun field => field.1 == key)).map Prod.snd
  | _ => none

def asStr : Json → Option String
  | .str text => some text
  | _ => none

end Json

/-- `Map::insert` of a key that is there: its value is replaced in place. -/
def Fields.replace (fields : Fields) (key : String) (value : Json) : Fields :=
  .ofList (fields.toList.map fun field => if field.1 = key then (key,value) else field)

def Fields.containsKey (fields : Fields) (key : String) : Bool :=
  fields.toList.any (fun field => field.1 == key)

/-! ### The two searches of the store -/

mutual
/-- `references`: whether a string of the document, at any depth, is one of `ids`. -/
def references (ids : List String) : Json → Bool
  | .str text => ids.contains text
  | .arr items => referencesItems ids items
  | .obj fields => referencesFields ids fields
  | _ => false
def referencesItems (ids : List String) : Items → Bool
  | .nil => false
  | .cons head tail => references ids head || referencesItems ids tail
def referencesFields (ids : List String) : Fields → Bool
  | .nil => false
  | .cons _ value tail => references ids value || referencesFields ids tail
end

/-- The fields by which a receipt names an object. -/
def identityFields : List String :=
  ["id","digest","instance_id","instanceId","experiment_id","session_id","operation_id","draft_id","plan_id"]

/-- The fields whose contents belong to the caller. -/
def contentFields : List String := ["artifact","request","cell","lock","config"]

mutual
/-- `references_identity`: whether an identity field outside of the caller's
    contents is one of `ids`. -/
def referencesIdentity (ids : List String) : Json → Bool
  | .arr items => referencesIdentityItems ids items
  | .obj fields => referencesIdentityFields ids fields
  | _ => false
def referencesIdentityItems (ids : List String) : Items → Bool
  | .nil => false
  | .cons head tail => referencesIdentity ids head || referencesIdentityItems ids tail
def referencesIdentityFields (ids : List String) : Fields → Bool
  | .nil => false
  | .cons key value tail =>
    (identityFields.contains key && value.asStr.any ids.contains) ||
      (!contentFields.contains key && referencesIdentity ids value) ||
      referencesIdentityFields ids tail
end

end Proofstorm.Core
