import Proofstorm.Core.Text

/-!
Documents read back from their text, as `serde_json::from_str` does it. An object
keeps the last of two entries with one name, and a number keeps its text. The
readers count down a bound that the length of the text never exhausts: what was
written is read back (`ofText_text`).
-/
namespace Proofstorm.Core

/-! ### Strings -/

def hexValue (c : Char) : Option Nat :=
  if '0' ≤ c ∧ c ≤ '9' then some (c.toNat - 48)
  else if 'a' ≤ c ∧ c ≤ 'f' then some (c.toNat - 87)
  else if 'A' ≤ c ∧ c ≤ 'F' then some (c.toNat - 55)
  else none

/-- Four hexadecimal digits. -/
def readHex : List Char → Option (Nat × List Char)
  | a :: b :: c :: d :: rest => do
    let a ← hexValue a
    let b ← hexValue b
    let c ← hexValue c
    let d ← hexValue d
    some (((a * 16 + b) * 16 + c) * 16 + d,rest)
  | _ => none

/-- What stands after `\u`: a code point, or the two halves of one. -/
def readUnicode (text : List Char) : Option (Char × List Char) :=
  (readHex text).bind fun (unit,rest) =>
    if 0xD800 ≤ unit ∧ unit < 0xDC00 then
      match rest with
      | '\\' :: 'u' :: rest => (readHex rest).bind fun (low,rest) =>
        if 0xDC00 ≤ low ∧ low < 0xE000 then
          some (Char.ofNat (0x10000 + (unit - 0xD800) * 0x400 + (low - 0xDC00)),rest)
        else none
      | _ => none
    else if 0xDC00 ≤ unit ∧ unit < 0xE000 then none
    else some (Char.ofNat unit,rest)

/-- What stands after a backslash. -/
def readEscape : List Char → Option (Char × List Char)
  | [] => none
  | c :: rest =>
    if c = '"' ∨ c = '\\' ∨ c = '/' then some (c,rest)
    else if c = 'n' then some ('\n',rest)
    else if c = 'r' then some ('\r',rest)
    else if c = 't' then some ('\t',rest)
    else if c = 'b' then some (Char.ofNat 8,rest)
    else if c = 'f' then some (Char.ofNat 12,rest)
    else if c = 'u' then readUnicode rest
    else none

/-- The rest of a string, after its opening quote. -/
def readStr : (fuel : Nat) → List Char → Option (List Char × List Char)
  | 0, _ | _, [] => none
  | fuel+1, c :: rest =>
    if c = '"' then some ([],rest)
    else if c = '\\' then (readEscape rest).bind fun (c,rest) =>
      (readStr fuel rest).map fun (more,rest) => (c :: more,rest)
    else if c.toNat < 32 then none
    else (readStr fuel rest).map fun (more,rest) => (c :: more,rest)

/-! ### Numbers -/

def isNumberChar (c : Char) : Bool := c.isDigit || c = '-' || c = '+' || c = '.' || c = 'e' || c = 'E'

/-- One digit or more. -/
def isDigits (text : List Char) : Bool := text ≠ [] && text.all Char.isDigit

/-- Nothing, or an exponent. -/
def isExponent : List Char → Bool
  | [] => true
  | c :: rest => (c = 'e' || c = 'E') &&
    match rest with
    | '+' :: rest | '-' :: rest | rest => isDigits rest

/-- Nothing, a fraction, an exponent, or both. -/
def isFraction : List Char → Bool
  | '.' :: rest => isDigits (rest.takeWhile Char.isDigit) && isExponent (rest.dropWhile Char.isDigit)
  | rest => isExponent rest

/-- A number without its sign. -/
def isUnsigned (text : List Char) : Bool :=
  let whole := text.takeWhile Char.isDigit
  isDigits whole && (whole = ['0'] || whole.head? ≠ some '0') && isFraction (text.dropWhile Char.isDigit)

def isNumber : List Char → Bool
  | '-' :: rest => isUnsigned rest
  | text => isUnsigned text

def readNumber (text : List Char) : Option (Json × List Char) :=
  let number := text.takeWhile isNumberChar
  if isNumber number then some (.num (String.ofList number),text.dropWhile isNumberChar) else none

/-! ### Documents -/

def isBlank (c : Char) : Bool := c = ' ' || c = '\n' || c = '\r' || c = '\t'

def skip (text : List Char) : List Char := text.dropWhile isBlank

/-- The rest of `null`, `true` or `false`. -/
def readWord (letters : List Char) (value : Json) (text : List Char) : Option (Json × List Char) :=
  if letters.isPrefixOf text then some (value,text.drop letters.length) else none

mutual
def readValue : (fuel : Nat) → List Char → Option (Json × List Char)
  | 0, _ => none
  | fuel+1, text =>
    match skip text with
    | [] => none
    | c :: rest =>
      if c = '"' then (readStr fuel rest).map fun (text,rest) => (.str (String.ofList text),rest)
      else if c = '[' then
        match skip rest with
        | ']' :: rest => some (.arr .nil,rest)
        | rest => (readItems fuel rest).map fun (items,rest) => (.arr items,rest)
      else if c = '\x7b' then
        match skip rest with
        | '\x7d' :: rest => some (.obj .nil,rest)
        | rest => (readFields fuel rest).map fun (fields,rest) => (.obj fields,rest)
      else if c = 'n' then readWord ['u','l','l'] .null rest
      else if c = 't' then readWord ['r','u','e'] (.bool true) rest
      else if c = 'f' then readWord ['a','l','s','e'] (.bool false) rest
      else readNumber (c :: rest)
/-- The items of an array that has some, up to its end. -/
def readItems : (fuel : Nat) → List Char → Option (Items × List Char)
  | 0, _ => none
  | fuel+1, text =>
    (readValue fuel text).bind fun (head,rest) =>
      match skip rest with
      | ',' :: rest => (readItems fuel rest).map fun (tail,rest) => (.cons head tail,rest)
      | ']' :: rest => some (.cons head .nil,rest)
      | _ => none
/-- The entries of an object that has some, up to its end. -/
def readFields : (fuel : Nat) → List Char → Option (Fields × List Char)
  | 0, _ => none
  | fuel+1, text =>
    match skip text with
    | '"' :: rest => (readStr fuel rest).bind fun (key,rest) =>
      match skip rest with
      | ':' :: rest => (readValue fuel rest).bind fun (value,rest) =>
        match skip rest with
        | ',' :: rest => (readFields fuel rest).map fun (tail,rest) =>
          (if tail.containsKey (String.ofList key) then tail else .cons (String.ofList key) value tail,rest)
        | '\x7d' :: rest => some (.cons (String.ofList key) value .nil,rest)
        | _ => none
      | _ => none
    | _ => none
end

/-- `serde_json::from_str`. -/
def Json.ofText (text : String) : Option Json :=
  match readValue (text.toList.length + 1) text.toList with
  | some (value,rest) => if skip rest = [] then some value else none
  | none => none

/-- `serde_json::to_string`. -/
def Json.text (value : Json) : String := String.ofList value.write

/-! ### What is written is read back -/

mutual
/-- The numbers are numbers, and an object has one entry for each of its names. -/
def Json.Proper : Json → Prop
  | .num text => isNumber text.toList = true
  | .arr items => items.Proper
  | .obj fields => fields.Proper
  | _ => True
def Items.Proper : Items → Prop
  | .nil => True
  | .cons head tail => head.Proper ∧ tail.Proper
def Fields.Proper : Fields → Prop
  | .nil => True
  | .cons key value tail => tail.containsKey key = false ∧ value.Proper ∧ tail.Proper
end

theorem hexValue_digitChar : ∀ n < 16, hexValue (Nat.digitChar n) = some n := by decide

variable {fuel : Nat} {c : Char} {rest : List Char} {value : Json}

theorem readStr_escape :
    readStr (fuel + 1) (escape c ++ rest) = (readStr fuel rest).map fun (more,rest) => (c :: more,rest) := by
  unfold escape
  split_ifs
  · subst c; rfl
  · subst c; rfl
  · subst c; rfl
  · subst c; rfl
  · subst c; rfl
  · rename_i eight
    obtain rfl : c = Char.ofNat 8 := by rw [← eight,Char.ofNat_toNat]
    rfl
  · rename_i twelve
    obtain rfl : c = Char.ofNat 12 := by rw [← twelve,Char.ofNat_toNat]
    rfl
  · rename_i low
    have high := hexValue_digitChar (c.toNat / 16) (by omega)
    have unit := hexValue_digitChar (c.toNat % 16) (by omega)
    have read : readHex ('0' :: '0' :: Nat.digitChar (c.toNat / 16) :: Nat.digitChar (c.toNat % 16) :: rest) =
        some (c.toNat,rest) := by
      have zero : hexValue '0' = some 0 := rfl
      simp only [readHex,high,unit,zero,Option.bind_eq_bind,Option.bind_some]
      congr 2
      omega
    have escaped : readEscape ('u' :: '0' :: '0' :: Nat.digitChar (c.toNat / 16) :: Nat.digitChar (c.toNat % 16) :: rest) =
        some (c,rest) := by
      have one : ¬ (0xD800 ≤ c.toNat ∧ c.toNat < 0xDC00) := by omega
      have two : ¬ (0xDC00 ≤ c.toNat ∧ c.toNat < 0xE000) := by omega
      show readUnicode _ = _
      rw [readUnicode,read,Option.bind_some]
      simp only [if_neg one,if_neg two,Char.ofNat_toNat]
    show readStr (fuel + 1)
      ('\\' :: 'u' :: '0' :: '0' :: Nat.digitChar (c.toNat / 16) :: Nat.digitChar (c.toNat % 16) :: rest) = _
    rw [readStr,if_neg (by decide),if_pos rfl,escaped]
    rfl
  · rename_i quote slash _ _ _ _ _ high
    rw [List.singleton_append,readStr,if_neg quote,if_neg slash,if_neg high]

theorem length_escape (c : Char) : 1 ≤ (escape c).length := by
  unfold escape
  split_ifs <;> exact Nat.le_add_left 1 _

theorem readStr_flatMap {text : List Char} (enough : (text.flatMap escape).length < fuel) :
    readStr fuel (text.flatMap escape ++ '"' :: rest) = some (text,rest) := by
  induction text generalizing fuel with
  | nil =>
    cases fuel with
    | zero => cases enough
    | succ fuel => rfl
  | cons c text ih =>
    cases fuel with
    | zero => cases enough
    | succ fuel =>
      rw [List.flatMap_cons,List.length_append] at enough
      have one := length_escape c
      rw [List.flatMap_cons,List.append_assoc,readStr_escape,ih (by omega)]
      rfl

/-! #### Numbers -/

theorem isNumberChar_of_digit (digit : c.isDigit = true) : isNumberChar c = true := by
  simp [isNumberChar,digit]

theorem isDigits_chars {text : List Char} (digits : isDigits text = true) : ∀ c ∈ text, isNumberChar c = true := by
  intro c member
  simp only [isDigits,Bool.and_eq_true,List.all_eq_true] at digits
  exact isNumberChar_of_digit (digits.2 c member)

theorem isExponent_chars {text : List Char} (exponent : isExponent text = true) : ∀ c ∈ text, isNumberChar c = true := by
  cases text with
  | nil => exact List.forall_mem_nil _
  | cons e rest =>
    simp only [isExponent,Bool.and_eq_true,Bool.or_eq_true,decide_eq_true_eq] at exponent
    obtain ⟨letter,digits⟩ := exponent
    refine List.forall_mem_cons.mpr ⟨by rcases letter with rfl | rfl <;> rfl,?_⟩
    split at digits
    · exact List.forall_mem_cons.mpr ⟨rfl,isDigits_chars digits⟩
    · exact List.forall_mem_cons.mpr ⟨rfl,isDigits_chars digits⟩
    · exact isDigits_chars digits

theorem isFraction_chars {text : List Char} (fraction : isFraction text = true) : ∀ c ∈ text, isNumberChar c = true := by
  unfold isFraction at fraction
  split at fraction
  · rename_i rest
    simp only [Bool.and_eq_true] at fraction
    refine List.forall_mem_cons.mpr ⟨rfl,?_⟩
    rw [← List.takeWhile_append_dropWhile (p := Char.isDigit) (l := rest)]
    exact List.forall_mem_append.mpr ⟨isDigits_chars fraction.1,isExponent_chars fraction.2⟩
  · exact isExponent_chars fraction

theorem isUnsigned_chars {text : List Char} (number : isUnsigned text = true) :
    (∀ c ∈ text, isNumberChar c = true) ∧ ∃ c rest, text = c :: rest ∧ c.isDigit = true := by
  simp only [isUnsigned,Bool.and_eq_true] at number
  obtain ⟨⟨whole,_⟩,fraction⟩ := number
  constructor
  · rw [← List.takeWhile_append_dropWhile (p := Char.isDigit) (l := text)]
    exact List.forall_mem_append.mpr ⟨isDigits_chars whole,isFraction_chars fraction⟩
  · cases text with
    | nil => cases whole
    | cons c rest =>
      refine ⟨c,rest,rfl,?_⟩
      by_contra other
      rw [List.takeWhile_cons_of_neg other] at whole
      cases whole

theorem isNumber_chars {text : List Char} (number : isNumber text = true) :
    (∀ c ∈ text, isNumberChar c = true) ∧ ∃ c rest, text = c :: rest ∧ (c.isDigit = true ∨ c = '-') := by
  unfold isNumber at number
  split at number
  · obtain ⟨chars,_⟩ := isUnsigned_chars number
    exact ⟨List.forall_mem_cons.mpr ⟨rfl,chars⟩,_,_,rfl,.inr rfl⟩
  · obtain ⟨chars,c,rest,split,digit⟩ := isUnsigned_chars number
    exact ⟨chars,c,rest,split,.inl digit⟩

/-- What follows a number in a text. -/
def Stops (rest : List Char) : Prop := rest.head?.all fun c => !isNumberChar c

theorem takeWhile_stops {text : List Char} (chars : ∀ c ∈ text, isNumberChar c = true) (stops : Stops rest) :
    (text ++ rest).takeWhile isNumberChar = text ∧ (text ++ rest).dropWhile isNumberChar = rest := by
  have last : rest.takeWhile isNumberChar = [] ∧ rest.dropWhile isNumberChar = rest := by
    cases rest with
    | nil => exact ⟨rfl,rfl⟩
    | cons c rest =>
      have other : ¬ isNumberChar c = true := by simpa [Stops] using stops
      exact ⟨List.takeWhile_cons_of_neg other,List.dropWhile_cons_of_neg other⟩
  rw [List.takeWhile_append_of_pos chars,List.dropWhile_append_of_pos chars,last.1,last.2,List.append_nil]
  exact ⟨rfl,rfl⟩

theorem readNumber_append {text : String} (number : isNumber text.toList = true) (stops : Stops rest) :
    readNumber (text.toList ++ rest) = some (.num text,rest) := by
  obtain ⟨taken,left⟩ := takeWhile_stops (isNumber_chars number).1 stops
  rw [readNumber,taken,left,if_pos number,String.ofList_toList]

/-! #### Documents -/

theorem skip_cons (solid : isBlank c = false) : skip (c :: rest) = c :: rest :=
  List.dropWhile_cons_of_neg (by simp [solid])

theorem isNumberChar_solid (number : isNumberChar c = true) : isBlank c = false := by
  by_contra blank
  simp only [Bool.not_eq_false,isBlank,Bool.or_eq_true,decide_eq_true_eq] at blank
  rcases blank with ((rfl | rfl) | rfl) | rfl <;> cases number

/-- A document begins with a letter, a digit, a sign, a quote or a bracket that opens. -/
theorem Json.write_head (proper : value.Proper) :
    ∃ c rest, value.write = c :: rest ∧ isBlank c = false ∧ c ≠ ']' ∧ c ≠ '\x7d' := by
  cases value with
  | null => exact ⟨_,_,rfl,rfl,by decide,by decide⟩
  | bool value => cases value <;> exact ⟨_,_,rfl,rfl,by decide,by decide⟩
  | num text =>
    obtain ⟨chars,c,rest,split,_⟩ := isNumber_chars proper
    have number := chars c (split ▸ List.mem_cons_self)
    refine ⟨c,rest,split,isNumberChar_solid number,?_,?_⟩
    · rintro rfl
      cases number
    · rintro rfl
      cases number
  | str text => exact ⟨_,_,rfl,rfl,by decide,by decide⟩
  | arr items => exact ⟨_,_,rfl,rfl,by decide,by decide⟩
  | obj fields => exact ⟨_,_,rfl,rfl,by decide,by decide⟩

theorem readNumber_head (first : c.isDigit = true ∨ c = '-') :
    c ≠ '"' ∧ c ≠ '[' ∧ c ≠ '\x7b' ∧ c ≠ 'n' ∧ c ≠ 't' ∧ c ≠ 'f' := by
  refine ⟨?_,?_,?_,?_,?_,?_⟩ <;> rintro rfl <;> revert first <;> decide

theorem stops_of (other : isNumberChar c = false) : Stops (c :: rest) := by
  simp [Stops,other]

/-- A document and what follows it in a text are told apart. -/
def Json.Read (value : Json) : Prop :=
  ∀ fuel rest, value.Proper → value.write.length < fuel → Stops rest → readValue fuel (value.write ++ rest) = some (value,rest)

def Items.Read (items : Items) : Prop :=
  ∀ fuel rest, items.Proper → items ≠ .nil → items.write.length + 1 < fuel →
    readItems fuel (items.write ++ ']' :: rest) = some (items,rest)

def Fields.Read (fields : Fields) : Prop :=
  ∀ fuel rest, fields.Proper → fields ≠ .nil → fields.write.length + 1 < fuel →
    readFields fuel (fields.write ++ '\x7d' :: rest) = some (fields,rest)

theorem readValue_str (text : String) : (Json.str text).Read := by
  intro fuel rest _ enough _
  cases fuel with
  | zero => cases enough
  | succ fuel =>
    have room : (text.toList.flatMap escape).length < fuel := by
      simp only [Json.write,writeStr,List.length_append,List.length_cons,List.length_nil] at enough
      omega
    simp only [Json.write,writeStr,List.cons_append,List.append_assoc,List.nil_append]
    rw [readValue,skip_cons rfl]
    simp only [if_true,readStr_flatMap room,Option.map_some,String.ofList_toList]

theorem readValue_num (text : String) : (Json.num text).Read := by
  intro fuel rest proper enough stops
  cases fuel with
  | zero => cases enough
  | succ fuel =>
    obtain ⟨chars,c,more,split,first⟩ := isNumber_chars proper
    have solid := isNumberChar_solid (chars c (split ▸ List.mem_cons_self))
    have read := readNumber_append proper stops
    simp only [Json.write]
    rw [split,List.cons_append] at read ⊢
    obtain ⟨quote,array,object,n,t,f⟩ := readNumber_head first
    rw [readValue,skip_cons solid]
    simp only [quote,array,object,n,t,f,if_false,read]

theorem readValue_bracket (fuel : Nat) (text : List Char) :
    readValue (fuel + 1) ('[' :: text) =
      match skip text with
      | ']' :: rest => some (.arr .nil,rest)
      | rest => (readItems fuel rest).map fun (items,rest) => (.arr items,rest) := by
  rw [readValue,skip_cons rfl]
  rfl

theorem readValue_brace (fuel : Nat) (text : List Char) :
    readValue (fuel + 1) ('\x7b' :: text) =
      match skip text with
      | '\x7d' :: rest => some (.obj .nil,rest)
      | rest => (readFields fuel rest).map fun (fields,rest) => (.obj fields,rest) := by
  rw [readValue,skip_cons rfl]
  rfl

theorem readValue_arr {items : Items} (ih : items.Read) : (Json.arr items).Read := by
  intro fuel rest proper enough _
  cases fuel with
  | zero => cases enough
  | succ fuel =>
    simp only [Json.write,List.cons_append,List.append_assoc,List.nil_append]
    rw [readValue_bracket]
    cases items with
    | nil => rfl
    | cons head tail =>
      have room : (Items.cons head tail).write.length + 1 < fuel := by
        simp only [Json.write,List.length_append,List.length_cons,List.length_nil] at enough
        omega
      have read := ih fuel rest proper (by simp) room
      obtain ⟨c,more,start,solid,open_,_⟩ : ∃ c more, (Items.cons head tail).write = c :: more ∧ isBlank c = false ∧
          c ≠ ']' ∧ c ≠ '\x7d' := by
        obtain ⟨c,more,start,rest⟩ := Json.write_head proper.1
        cases tail with
        | nil => exact ⟨c,more,start,rest⟩
        | cons => exact ⟨c,_,by rw [Items.write,start,List.cons_append]; simp,rest⟩
      rw [start,List.cons_append] at read ⊢
      rw [skip_cons solid]
      simp [open_,read]

theorem readValue_obj {fields : Fields} (ih : fields.Read) : (Json.obj fields).Read := by
  intro fuel rest proper enough _
  cases fuel with
  | zero => cases enough
  | succ fuel =>
    simp only [Json.write,List.cons_append,List.append_assoc,List.nil_append]
    rw [readValue_brace]
    cases fields with
    | nil => rfl
    | cons key value tail =>
      have room : (Fields.cons key value tail).write.length + 1 < fuel := by
        simp only [Json.write,List.length_append,List.length_cons,List.length_nil] at enough
        omega
      have read := ih fuel rest proper (by simp) room
      obtain ⟨more,start⟩ : ∃ more, (Fields.cons key value tail).write = '"' :: more := by
        cases tail <;> exact ⟨_,rfl⟩
      rw [start,List.cons_append] at read ⊢
      rw [skip_cons rfl]
      simp [read]

theorem readItems_cons {head : Json} {tail : Items} (first : head.Read) (ih : tail.Read) : (Items.cons head tail).Read := by
  intro fuel rest proper _ enough
  cases fuel with
  | zero => cases enough
  | succ fuel =>
    rw [readItems]
    cases tail with
    | nil =>
      rw [Items.write] at enough ⊢
      rw [first fuel _ proper.1 (by omega) (stops_of (by rfl)),Option.bind_some]
      simp only [skip_cons (show isBlank ']' = false from rfl)]
    | cons second tail =>
      have shape : (Items.cons head (.cons second tail)).write = head.write ++ ',' :: (Items.cons second tail).write := rfl
      rw [shape,List.length_append,List.length_cons] at enough
      obtain ⟨c,more,start,_⟩ := Json.write_head proper.1
      have some_ : 0 < head.write.length := by simp [start]
      have read := ih fuel rest proper.2 (by simp) (by omega)
      rw [shape,List.append_assoc,List.cons_append,first fuel _ proper.1 (by omega) (stops_of (by rfl)),Option.bind_some]
      simp only [skip_cons (show isBlank ',' = false from rfl),read,Option.map_some]

theorem readFields_cons {key : String} {tail : Fields} (first : value.Read) (ih : tail.Read) :
    (Fields.cons key value tail).Read := by
  intro fuel rest proper _ enough
  obtain ⟨once,good,others⟩ := proper
  cases fuel with
  | zero => cases enough
  | succ fuel =>
    rw [readFields]
    cases tail with
    | nil =>
      simp only [Fields.write,writeStr,List.length_append,List.length_cons,List.length_nil] at enough
      have name : (key.toList.flatMap escape).length < fuel := by omega
      have value := first fuel ('\x7d' :: rest) good (by omega) (stops_of rfl)
      simp only [Fields.write,writeStr,List.cons_append,List.append_assoc,List.nil_append,
        skip_cons (show isBlank '"' = false from rfl),readStr_flatMap name,Option.bind_some,
        skip_cons (show isBlank ':' = false from rfl),value,skip_cons (show isBlank '\x7d' = false from rfl),String.ofList_toList]
    | cons second more tail =>
      simp only [Fields.write,writeStr,List.length_append,List.length_cons,List.length_nil] at enough
      have name : (key.toList.flatMap escape).length < fuel := by omega
      have value := first fuel (',' :: ((Fields.cons second more tail).write ++ '\x7d' :: rest)) good (by omega) (stops_of rfl)
      have read := ih fuel rest others (by simp) (by omega)
      simp only [Fields.write,writeStr,List.cons_append,List.append_assoc,List.nil_append,
        skip_cons (show isBlank '"' = false from rfl),readStr_flatMap name,Option.bind_some,
        skip_cons (show isBlank ':' = false from rfl),value,skip_cons (show isBlank ',' = false from rfl),read,Option.map_some,
        String.ofList_toList,once]
      rfl

mutual
theorem Json.read_write : (value : Json) → value.Read
  | .null => fun fuel rest _ enough _ => by cases fuel with | zero => cases enough | succ fuel => rfl
  | .bool value => fun fuel rest _ enough _ => by
    cases fuel with | zero => cases enough | succ fuel => cases value <;> rfl
  | .num text => readValue_num text
  | .str text => readValue_str text
  | .arr items => readValue_arr items.read_write
  | .obj fields => readValue_obj fields.read_write
theorem Items.read_write : (items : Items) → items.Read
  | .nil => fun _ _ _ none => absurd rfl none
  | .cons head tail => readItems_cons head.read_write tail.read_write
theorem Fields.read_write : (fields : Fields) → fields.Read
  | .nil => fun _ _ _ none => absurd rfl none
  | .cons _ value tail => readFields_cons value.read_write tail.read_write
end

/-- The text of a document reads back as the document. -/
theorem Json.ofText_text (proper : value.Proper) : Json.ofText value.text = some value := by
  have read := value.read_write (value.write.length + 1) [] proper (Nat.lt_succ_self _) rfl
  rw [List.append_nil] at read
  rw [ofText,text,String.toList_ofList,read]
  rfl
end Proofstorm.Core
