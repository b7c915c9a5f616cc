import Mathlib.Algebra.GroupWithZero.Nat
import Mathlib.Data.List.Basic
import Mathlib.Data.String.Basic

/-!
Bytes that are read as UTF-8 text. `scan` reads the characters at the start of the
bytes and leaves what no character can be read from; what is left is a cut-off
character where `errorLen` says nothing, as it is when a text is cut in the middle
of a character (`scan_cut`, `errorLen_cut`).
-/
namespace Proofstorm.Utf8

/-- The bytes of a text. -/
def encode (chars : List Char) : List UInt8 := chars.flatMap String.utf8EncodeChar

@[simp] theorem encode_cons (c : Char) (rest : List Char) : encode (c :: rest) = String.utf8EncodeChar c ++ encode rest :=
  List.flatMap_cons

@[simp] theorem encode_append (left right : List Char) : encode (left ++ right) = encode left ++ encode right :=
  List.flatMap_append

/-- The first character, where one can be read. -/
def decodeFirst (bytes : List UInt8) : Option Char := bytes.toByteArray.utf8DecodeChar? 0

theorem decodeFirst_encode (c : Char) (rest : List UInt8) : decodeFirst (String.utf8EncodeChar c ++ rest) = some c := by
  rw [decodeFirst,List.toByteArray_append]
  exact ByteArray.utf8DecodeChar?_utf8EncodeChar_append

variable {c : Char} {low high : UInt8} {n : Nat}

theorem exists_of_decodeFirst {bytes : List UInt8} (read : decodeFirst bytes = some c) :
    ∃ rest, bytes = String.utf8EncodeChar c ++ rest := by
  obtain ⟨rest,same⟩ := ByteArray.exists_of_utf8DecodeChar?_eq_some read
  refine ⟨rest.data.toList,?_⟩
  have lists := congrArg (fun array : ByteArray => array.data.toList) same
  simpa using lists

theorem utf8EncodeChar_length (c : Char) : (String.utf8EncodeChar c).length = c.utf8Size := String.length_utf8EncodeChar c

theorem le_length_of_decodeFirst {bytes : List UInt8} (read : decodeFirst bytes = some c) :
    c.utf8Size ≤ bytes.length := by
  obtain ⟨rest,rfl⟩ := exists_of_decodeFirst read
  rw [List.length_append,utf8EncodeChar_length]
  omega

/-- The characters at the start of the bytes, and what is left where no further
    one can be read. -/
def scan (bytes : List UInt8) : List Char × List UInt8 :=
  match _ : decodeFirst bytes with
  | some c => (c :: (scan (bytes.drop c.utf8Size)).1,(scan (bytes.drop c.utf8Size)).2)
  | none => ([],bytes)
termination_by bytes.length
decreasing_by
  all_goals
    have within := le_length_of_decodeFirst ‹_›
    have some_ := c.utf8Size_pos
    rw [List.length_drop]
    omega

theorem scan_stop {bytes : List UInt8} (stop : decodeFirst bytes = none) : scan bytes = ([],bytes) := by
  rw [scan]
  split
  · rename_i c read
    cases stop.symm.trans read
  · rfl

theorem scan_cons (c : Char) (bytes : List UInt8) :
    scan (String.utf8EncodeChar c ++ bytes) = (c :: (scan bytes).1,(scan bytes).2) := by
  rw [scan]
  split
  · rename_i d read
    cases (decodeFirst_encode c bytes).symm.trans read
    rw [← utf8EncodeChar_length c,List.drop_left]
  · rename_i stop
    cases (decodeFirst_encode c bytes).symm.trans stop

theorem decodeFirst_nil : decodeFirst [] = none := by
  cases read : decodeFirst [] with
  | none => rfl
  | some c =>
    have within := le_length_of_decodeFirst read
    have some_ := c.utf8Size_pos
    rw [List.length_nil] at within
    omega

/-- What is read of a text and of bytes behind it, from which no character can be read. -/
theorem scan_encode (chars : List Char) {rest : List UInt8} (stop : decodeFirst rest = none) :
    scan (encode chars ++ rest) = (chars,rest) := by
  induction chars with
  | nil => exact scan_stop stop
  | cons c others ih => rw [encode_cons,List.append_assoc,scan_cons,ih]

/-- A text is known by its bytes. -/
theorem encode_inj {left right : List Char} (same : encode left = encode right) : left = right := by
  have read := scan_encode left decodeFirst_nil
  rw [same,scan_encode right decodeFirst_nil] at read
  exact (Prod.mk.inj read).1.symm

theorem encode_flatMap {α : Type} (parts : List α) (text : α → List Char) :
    parts.flatMap (fun part => encode (text part)) = encode (parts.flatMap text) := by
  induction parts with
  | nil => rfl
  | cons part rest ih => rw [List.flatMap_cons,List.flatMap_cons,encode_append,ih]

/-! ### Errors -/

/-- A byte that continues a character. -/
def continues (byte : UInt8) : Bool := 0x80 ≤ byte && byte ≤ 0xBF

/-- A byte that may be the second of a character, after its first. -/
def follows (first second : UInt8) : Bool :=
  if first = 0xE0 then 0xA0 ≤ second && second ≤ 0xBF
  else if first = 0xED then 0x80 ≤ second && second ≤ 0x9F
  else if first = 0xF0 then 0x90 ≤ second && second ≤ 0xBF
  else if first = 0xF4 then 0x80 ≤ second && second ≤ 0x8F
  else continues second

/-- `Utf8Error::error_len`: the bytes of what is not a character, and `none` where
    the bytes end before the character that they start does. -/
def errorLen : List UInt8 → Option Nat
  | [] => none
  | first :: rest =>
    if 0xC2 ≤ first ∧ first ≤ 0xDF then
      match rest with
      | [] => none
      | _ :: _ => some 1
    else if 0xE0 ≤ first ∧ first ≤ 0xEF then
      match rest with
      | [] => none
      | [second] => if follows first second then none else some 1
      | second :: _ :: _ => if follows first second then some 2 else some 1
    else if 0xF0 ≤ first ∧ first ≤ 0xF4 then
      match rest with
      | [] => none
      | [second] => if follows first second then none else some 1
      | [second,third] => if follows first second then if continues third then none else some 2 else some 1
      | second :: third :: _ :: _ =>
        if follows first second then if continues third then some 3 else some 2 else some 1
    else some 1

/-- The start of a character's bytes, that lacks its end. -/
def Cut (c : Char) (bytes : List UInt8) : Prop := bytes <+: String.utf8EncodeChar c ∧ bytes.length < c.utf8Size

/-- No character can be read from a part of one. -/
theorem Cut.decodeFirst {bytes : List UInt8} (cut : Cut c bytes) : decodeFirst bytes = none := by
  cases read : Utf8.decodeFirst bytes with
  | none => rfl
  | some d =>
    obtain ⟨rest,same⟩ := exists_of_decodeFirst read
    obtain ⟨tail,whole⟩ := cut.1
    have other : Utf8.decodeFirst (String.utf8EncodeChar c ++ []) = some d := by
      rw [List.append_nil,← whole,same,List.append_assoc]
      exact decodeFirst_encode d (rest ++ tail)
    cases (decodeFirst_encode c []).symm.trans other
    exact absurd (le_length_of_decodeFirst read) (Nat.not_le.mpr cut.2)

/-! ### The bytes of a character -/

theorem within_ofNat (small : n < 256) :
    (low ≤ UInt8.ofNat n ∧ UInt8.ofNat n ≤ high) ↔ low.toNat ≤ n ∧ n ≤ high.toNat := by
  rw [UInt8.le_iff_toNat_le,UInt8.le_iff_toNat_le,UInt8.toNat_ofNat',Nat.mod_eq_of_lt small]

theorem ofNat_inj {a b : Nat} (left : a < 256) (right : b < 256) : UInt8.ofNat a = UInt8.ofNat b ↔ a = b := by
  constructor
  · intro same
    have nats := congrArg UInt8.toNat same
    rw [UInt8.toNat_ofNat',UInt8.toNat_ofNat',Nat.mod_eq_of_lt left,Nat.mod_eq_of_lt right] at nats
    exact nats
  · rintro rfl
    rfl

theorem between (small : n < 256) (bounds : low.toNat ≤ n ∧ n ≤ high.toNat) :
    (decide (low ≤ UInt8.ofNat n) && decide (UInt8.ofNat n ≤ high)) = true := by
  obtain ⟨above,below⟩ := (within_ofNat small).mpr bounds
  rw [decide_eq_true above,decide_eq_true below]
  rfl

theorem continues_ofNat (n : Nat) : continues (.ofNat (n % 0x40 + 0x80)) = true := by
  have bounds : 128 ≤ n % 0x40 + 0x80 ∧ n % 0x40 + 0x80 ≤ 191 := by omega
  exact between (by omega) bounds

theorem scalar (c : Char) : c.val.toNat < 0xD800 ∨ 0xDFFF < c.val.toNat ∧ c.val.toNat < 0x110000 := c.valid

section
variable {v : Nat}

/-- The second byte of three: the table leaves out what two bytes can say, and the surrogates. -/
theorem follows_three (low : 0x7ff < v) (high : v ≤ 0xffff) (plain : v < 0xD800 ∨ 0xDFFF < v) :
    follows (.ofNat (v / 4096 % 16 + 0xe0)) (.ofNat (v / 64 % 0x40 + 0x80)) = true := by
  have e0 : UInt8.ofNat (v / 4096 % 16 + 0xe0) = 0xE0 ↔ v / 4096 % 16 + 0xe0 = 0xE0 := ofNat_inj (by omega) (by decide)
  have ed : UInt8.ofNat (v / 4096 % 16 + 0xe0) = 0xED ↔ v / 4096 % 16 + 0xe0 = 0xED := ofNat_inj (by omega) (by decide)
  have f0 : UInt8.ofNat (v / 4096 % 16 + 0xe0) = 0xF0 ↔ v / 4096 % 16 + 0xe0 = 0xF0 := ofNat_inj (by omega) (by decide)
  have f4 : UInt8.ofNat (v / 4096 % 16 + 0xe0) = 0xF4 ↔ v / 4096 % 16 + 0xe0 = 0xF4 := ofNat_inj (by omega) (by decide)
  unfold follows
  simp only [e0,ed,f0,f4]
  split_ifs with first second third fourth
  · have bounds : 0xA0 ≤ v / 64 % 0x40 + 0x80 ∧ v / 64 % 0x40 + 0x80 ≤ 0xBF := by omega
    exact between (by omega) bounds
  · have bounds : 0x80 ≤ v / 64 % 0x40 + 0x80 ∧ v / 64 % 0x40 + 0x80 ≤ 0x9F := by omega
    exact between (by omega) bounds
  · omega
  · omega
  · exact continues_ofNat (v / 64)

/-- The second byte of four: the table leaves out what three bytes can say, and what is no scalar value. -/
theorem follows_four (low : 0xffff < v) (high : v < 0x110000) :
    follows (.ofNat (v / 262144 % 8 + 0xf0)) (.ofNat (v / 4096 % 0x40 + 0x80)) = true := by
  have e0 : UInt8.ofNat (v / 262144 % 8 + 0xf0) = 0xE0 ↔ v / 262144 % 8 + 0xf0 = 0xE0 := ofNat_inj (by omega) (by decide)
  have ed : UInt8.ofNat (v / 262144 % 8 + 0xf0) = 0xED ↔ v / 262144 % 8 + 0xf0 = 0xED := ofNat_inj (by omega) (by decide)
  have f0 : UInt8.ofNat (v / 262144 % 8 + 0xf0) = 0xF0 ↔ v / 262144 % 8 + 0xf0 = 0xF0 := ofNat_inj (by omega) (by decide)
  have f4 : UInt8.ofNat (v / 262144 % 8 + 0xf0) = 0xF4 ↔ v / 262144 % 8 + 0xf0 = 0xF4 := ofNat_inj (by omega) (by decide)
  unfold follows
  simp only [e0,ed,f0,f4]
  split_ifs with first second third fourth
  · omega
  · omega
  · have bounds : 0x90 ≤ v / 4096 % 0x40 + 0x80 ∧ v / 4096 % 0x40 + 0x80 ≤ 0xBF := by omega
    exact between (by omega) bounds
  · have bounds : 0x80 ≤ v / 4096 % 0x40 + 0x80 ∧ v / 4096 % 0x40 + 0x80 ≤ 0x8F := by omega
    exact between (by omega) bounds
  · exact continues_ofNat (v / 4096)
end

/-- The bytes of a character by their number; each but the first continues it. -/
theorem utf8EncodeChar_cases (c : Char) :
    (∃ a, String.utf8EncodeChar c = [a]) ∨
    (∃ a b, String.utf8EncodeChar c = [a,b] ∧ 0xC2 ≤ a ∧ a ≤ 0xDF) ∨
    (∃ a b d, String.utf8EncodeChar c = [a,b,d] ∧ (0xE0 ≤ a ∧ a ≤ 0xEF) ∧ follows a b = true) ∨
    ∃ a b d e, String.utf8EncodeChar c = [a,b,d,e] ∧ (0xF0 ≤ a ∧ a ≤ 0xF4) ∧ follows a b = true ∧ continues d = true := by
  have plain := scalar c
  unfold String.utf8EncodeChar
  dsimp only
  generalize c.val.toNat = v at plain ⊢
  split_ifs with one two three
  · exact .inl ⟨_,rfl⟩
  · have bounds : 0xC2 ≤ v / 64 % 0x20 + 0xc0 ∧ v / 64 % 0x20 + 0xc0 ≤ 0xDF := by omega
    exact .inr (.inl ⟨_,_,rfl,(within_ofNat (by omega)).mpr bounds⟩)
  · have bounds : 0xE0 ≤ v / 4096 % 0x10 + 0xe0 ∧ v / 4096 % 0x10 + 0xe0 ≤ 0xEF := by omega
    exact .inr (.inr (.inl ⟨_,_,_,rfl,(within_ofNat (by omega)).mpr bounds,follows_three (by omega) (by omega) (by omega)⟩))
  · have bounds : 0xF0 ≤ v / 262144 % 0x08 + 0xf0 ∧ v / 262144 % 0x08 + 0xf0 ≤ 0xF4 := by omega
    exact .inr (.inr (.inr ⟨_,_,_,_,rfl,(within_ofNat (by omega)).mpr bounds,follows_four (by omega) (by omega),
      continues_ofNat (v / 64)⟩))

/-- What is left of a cut-off character is not an error, but an end that lacks bytes. -/
theorem Cut.errorLen {bytes : List UInt8} (cut : Cut c bytes) : errorLen bytes = none := by
  obtain ⟨⟨tail,whole⟩,short⟩ := cut
  rw [← utf8EncodeChar_length c,← whole,List.length_append] at short
  obtain ⟨a,form⟩ | ⟨a,b,form,two⟩ | ⟨a,b,d,form,three,second⟩ | ⟨a,b,d,e,form,four,second,third⟩ := utf8EncodeChar_cases c
  · rw [form] at whole
    match bytes with
    | [] => rfl
    | _ :: _ =>
      have total := congrArg List.length whole
      simp only [List.cons_append,List.length_cons,List.length_append,List.length_nil] at total short
      omega
  · rw [form] at whole
    match bytes with
    | [] => rfl
    | [_] =>
      cases whole
      rw [Utf8.errorLen,if_pos two]
    | _ :: _ :: _ =>
      have total := congrArg List.length whole
      simp only [List.cons_append,List.length_cons,List.length_append,List.length_nil] at total short
      omega
  · rw [form] at whole
    have notTwo : ¬ (0xC2 ≤ a ∧ a ≤ 0xDF) := fun two => absurd (UInt8.le_trans three.1 two.2) (by decide)
    match bytes with
    | [] => rfl
    | [_] =>
      cases whole
      rw [Utf8.errorLen,if_neg notTwo,if_pos three]
    | [_,_] =>
      cases whole
      rw [Utf8.errorLen,if_neg notTwo,if_pos three]
      exact if_pos second
    | _ :: _ :: _ :: _ =>
      have total := congrArg List.length whole
      simp only [List.cons_append,List.length_cons,List.length_append,List.length_nil] at total short
      omega
  · rw [form] at whole
    have notTwo : ¬ (0xC2 ≤ a ∧ a ≤ 0xDF) := fun two => absurd (UInt8.le_trans four.1 two.2) (by decide)
    have notThree : ¬ (0xE0 ≤ a ∧ a ≤ 0xEF) := fun three => absurd (UInt8.le_trans four.1 three.2) (by decide)
    match bytes with
    | [] => rfl
    | [_] =>
      cases whole
      rw [Utf8.errorLen,if_neg notTwo,if_neg notThree,if_pos four]
    | [_,_] =>
      cases whole
      rw [Utf8.errorLen,if_neg notTwo,if_neg notThree,if_pos four]
      exact if_pos second
    | [_,_,_] =>
      cases whole
      rw [Utf8.errorLen,if_neg notTwo,if_neg notThree,if_pos four]
      exact (if_pos second).trans (if_pos third)
    | _ :: _ :: _ :: _ :: _ =>
      have total := congrArg List.length whole
      simp only [List.cons_append,List.length_cons,List.length_append,List.length_nil] at total short
      omega

/-! ### A text that is cut at a byte -/

/-- The first bytes of a text are whole characters and a part of the next. -/
theorem take_encode (chars : List Char) (count : Nat) : ∃ kept rest bytes, chars = kept ++ rest ∧
    (encode chars).take count = encode kept ++ bytes ∧ (bytes = [] ∨ ∃ c others, rest = c :: others ∧ Cut c bytes) := by
  induction chars generalizing count with
  | nil => exact ⟨[],[],[],rfl,List.take_nil,.inl rfl⟩
  | cons c others ih =>
    by_cases whole : c.utf8Size ≤ count
    · obtain ⟨kept,rest,bytes,rfl,taken,left⟩ := ih (count - c.utf8Size)
      refine ⟨c :: kept,rest,bytes,rfl,?_,left⟩
      rw [encode_cons,List.take_append,utf8EncodeChar_length,taken,encode_cons,List.append_assoc,
        List.take_of_length_le (by rw [utf8EncodeChar_length]; exact whole)]
    · refine ⟨[],c :: others,(String.utf8EncodeChar c).take count,rfl,?_,.inr ⟨c,others,rfl,List.take_prefix _ _,?_⟩⟩
      · rw [encode_cons,List.take_append_of_le_length (by rw [utf8EncodeChar_length]; omega)]
        rfl
      · rw [List.length_take,utf8EncodeChar_length]
        omega

/-! ### Text from bytes -/

/-- `std::str::from_utf8`: the text, or where the first error is and its length. -/
def fromUtf8 (bytes : List UInt8) : Except (Nat × Option Nat) String :=
  match scan bytes with
  | (chars,[]) => .ok (.ofList chars)
  | (_,rest) => .error (bytes.length - rest.length,errorLen rest)

/-- The characters that `String::from_utf8_lossy` reads; it puts a replacement for
    each error. -/
def lossyChars (fuel : Nat) (bytes : List UInt8) : List Char :=
  match fuel, scan bytes with
  | _, (chars,[]) => chars
  | 0, (chars,_) => chars
  | fuel + 1, (chars,rest) => chars ++ '\uFFFD' :: lossyChars fuel (rest.drop ((errorLen rest).getD rest.length))

/-- `String::from_utf8_lossy`; each error takes a byte at least. -/
def fromUtf8Lossy (bytes : List UInt8) : String := .ofList (lossyChars bytes.length bytes)

theorem fromUtf8_encode (chars : List Char) : fromUtf8 (encode chars) = .ok (.ofList chars) := by
  have read := scan_encode chars decodeFirst_nil
  rw [List.append_nil] at read
  rw [fromUtf8,read]

theorem fromUtf8Lossy_encode (chars : List Char) : fromUtf8Lossy (encode chars) = .ofList chars := by
  have read := scan_encode chars decodeFirst_nil
  rw [List.append_nil] at read
  unfold fromUtf8Lossy lossyChars
  rw [read]

/-- Where a text is cut in a character, the error is that of its end. -/
theorem fromUtf8_cut (chars : List Char) {c : Char} {bytes : List UInt8} (cut : Cut c bytes) (some_ : bytes ≠ []) :
    fromUtf8 (encode chars ++ bytes) = .error ((encode chars).length,none) := by
  rw [fromUtf8,scan_encode chars cut.decodeFirst]
  cases bytes with
  | nil => exact absurd rfl some_
  | cons first rest =>
    dsimp only
    rw [cut.errorLen,List.length_append,Nat.add_sub_cancel]

/-- The bytes of a text are as many as its length says. -/
theorem encode_length (chars : List Char) : (encode chars).length = (chars.map Char.utf8Size).sum := by
  induction chars with
  | nil => rfl
  | cons c rest ih => rw [encode_cons,List.length_append,utf8EncodeChar_length,ih,List.map_cons,List.sum_cons]

/-- The characters of the first 256 code points are as many bytes. -/
theorem byteChar_injective : Function.Injective fun byte : UInt8 => Char.ofNat byte.toNat := by
  have toNat_ofNat : ∀ byte : UInt8, (Char.ofNat byte.toNat).toNat = byte.toNat := by
    intro byte
    have small : byte.toNat < 256 := byte.toNat_lt
    rw [Char.ofNat,dif_pos (.inl (by omega))]
    rfl
  intro a b same
  have values := congrArg Char.toNat same
  simp only [toNat_ofNat] at values
  exact UInt8.toNat_inj.mp values

end Proofstorm.Utf8
