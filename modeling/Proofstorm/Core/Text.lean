import Proofstorm.Core.Json
import Mathlib.Data.Rat.Defs

/-!
Documents and values as text: the bytes that `serde_json` writes, and the numbers
that it reads back from the text of a number.
-/
namespace Proofstorm.Core

/-! ### `serde_json::to_vec` -/

/-- A character of a string, escaped where JSON asks for it. -/
def escape (c : Char) : List Char :=
  if c = '"' then ['\\','"']
  else if c = '\\' then ['\\','\\']
  else if c = '\n' then ['\\','n']
  else if c = '\r' then ['\\','r']
  else if c = '\t' then ['\\','t']
  else if c.toNat = 8 then ['\\','b']
  else if c.toNat = 12 then ['\\','f']
  else if c.toNat < 32 then ['\\','u','0','0',Nat.digitChar (c.toNat / 16),Nat.digitChar (c.toNat % 16)]
  else [c]

def writeStr (text : String) : List Char := '"' :: text.toList.flatMap escape ++ ['"']

mutual
/-- The compact text of a document, as characters. -/
def Json.write : Json → List Char
  | .null => "null".toList
  | .bool value => if value then "true".toList else "false".toList
  | .num text => text.toList
  | .str text => writeStr text
  | .arr items => '[' :: items.write ++ [']']
  | .obj fields => '\x7b' :: fields.write ++ ['\x7d']
def Items.write : Items → List Char
  | .nil => []
  | .cons head .nil => head.write
  | .cons head tail => head.write ++ ',' :: tail.write
def Fields.write : Fields → List Char
  | .nil => []
  | .cons key value .nil => writeStr key ++ ':' :: value.write
  | .cons key value tail => writeStr key ++ ':' :: value.write ++ ',' :: tail.write
end

/-- `serde_json::to_vec(value).len()`. -/
def Json.byteLength (value : Json) : Nat := (String.ofList value.write).utf8ByteSize

/-! ### What a value is read as -/

def Items.toList : Items → List Json
  | .nil => []
  | .cons head tail => head :: tail.toList

@[simp] theorem Items.toList_ofList (list : List Json) : (Items.ofList list).toList = list := by
  induction list with
  | nil => rfl
  | cons head tail ih => rw [ofList,toList,ih]

@[simp] theorem Fields.toList_ofList (list : List (String × Json)) : (Fields.ofList list).toList = list := by
  induction list with
  | nil => rfl
  | cons head tail ih => rw [ofList,toList,ih]

namespace Json

def asBool : Json → Option Bool
  | .bool value => some value
  | _ => none

def asArray : Json → Option (List Json)
  | .arr items => some items.toList
  | _ => none

def asObject : Json → Option (List (String × Json))
  | .obj fields => some fields.toList
  | _ => none

/-- The integer that a text of digits names. -/
def digits (text : List Char) : Option Nat :=
  if text ≠ [] ∧ text.all Char.isDigit then some (Nat.ofDigitChars 10 text 0) else none

/-- `Value::as_u64`: a number without a sign, fraction or exponent that fits. -/
def asU64 : Json → Option Nat
  | .num text => (digits text.toList).filter (· < 2 ^ 64)
  | _ => none

/-- `Value::as_i64`. -/
def asI64 : Json → Option Int
  | .num text =>
    match text.toList with
    | '-' :: rest => ((digits rest).filter (· ≤ 2 ^ 63)).map fun value => -(value : Int)
    | rest => ((digits rest).filter (· < 2 ^ 63)).map Int.ofNat
  | _ => none

/-- The value of a text such as `12`, `0.0002` or `1e-7`, without its sign. -/
def decimal (text : List Char) : Option ℚ :=
  let (mantissa, exponent) := (text.takeWhile (· ≠ 'e'), (text.dropWhile (· ≠ 'e')).tail)
  let (whole, fraction) := (mantissa.takeWhile (· ≠ '.'), (mantissa.dropWhile (· ≠ '.')).tail)
  let scale : Option ℚ :=
    match exponent with
    | [] => some 1
    | '-' :: rest => (digits rest).map fun power => 1 / 10 ^ power
    | '+' :: rest | rest => (digits rest).map fun power => 10 ^ power
  (digits (whole ++ fraction)).bind fun value => scale.map fun scale => value * scale / 10 ^ fraction.length

/-- `Value::as_f64`. The text of a number is the shortest that reads back as its
    `f64`, so it lies on the same side of a bound that is one itself. -/
def asF64 : Json → Option ℚ
  | .num text =>
    match text.toList with
    | '-' :: rest => (decimal rest).map fun value => -value
    | rest => decimal rest
  | _ => none

end Json

end Proofstorm.Core
