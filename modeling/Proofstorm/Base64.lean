import Mathlib.Data.List.Basic

/-!
Base64 with the standard alphabet and padding. Decoding asks for the padding and
for nothing but zero bits after the last byte, so that bytes have one text.
-/
namespace Proofstorm.Base64

def alphabet : List Char := "ABCDEFGHIJKLMNOPQRSTUVWXYZabcdefghijklmnopqrstuvwxyz0123456789+/".toList

/-- The character of six bits. -/
def digit (sextet : Nat) : Char := alphabet.getD sextet 'A'

/-- The six bits of a character. -/
def sextet (c : Char) : Option Nat := alphabet.idxOf? c

def encode : List UInt8 → List Char
  | [] => []
  | [a] => [digit (a.toNat / 4),digit (a.toNat % 4 * 16),'=','=']
  | [a,b] => [digit (a.toNat / 4),digit (a.toNat % 4 * 16 + b.toNat / 16),digit (b.toNat % 16 * 4),'=']
  | a :: b :: c :: rest =>
    digit (a.toNat / 4) :: digit (a.toNat % 4 * 16 + b.toNat / 16) :: digit (b.toNat % 16 * 4 + c.toNat / 64) ::
      digit (c.toNat % 64) :: encode rest

/-- The last group of a text, where it is padded: one byte or two. -/
def decodePadded (w x y : Char) : Option (List UInt8) := do
  let w ← sextet w
  let x ← sextet x
  if y = '=' then
    if x % 16 = 0 then some [.ofNat (w * 4 + x / 16)] else none
  else
    let y ← sextet y
    if y % 4 = 0 then some [.ofNat (w * 4 + x / 16),.ofNat (x % 16 * 16 + y / 4)] else none

def decode : List Char → Option (List UInt8)
  | [] => some []
  | w :: x :: y :: z :: rest =>
    if rest = [] ∧ z = '=' then decodePadded w x y
    else do
      let w ← sextet w
      let x ← sextet x
      let y ← sextet y
      let z ← sextet z
      let rest ← decode rest
      some (.ofNat (w * 4 + x / 16) :: .ofNat (x % 16 * 16 + y / 4) :: .ofNat (y % 4 * 64 + z) :: rest)
  | _ => none

theorem sextet_digit : ∀ n < 64, sextet (digit n) = some n := by decide +kernel

theorem digit_plain : ∀ n < 64, digit n ≠ '=' := by decide +kernel

theorem byte_lt (a : UInt8) : a.toNat < 256 := a.toNat_lt

/-- A byte is put together again from its bits. -/
theorem ofNat_of_eq {a : UInt8} {n : Nat} (same : n = a.toNat) : UInt8.ofNat n = a := by
  rw [same,UInt8.ofNat_toNat]

theorem decodePadded_one (a : UInt8) :
    decodePadded (digit (a.toNat / 4)) (digit (a.toNat % 4 * 16)) '=' = some [a] := by
  have bound := byte_lt a
  have zero : a.toNat % 4 * 16 % 16 = 0 := by omega
  have whole : UInt8.ofNat (a.toNat / 4 * 4 + a.toNat % 4 * 16 / 16) = a := ofNat_of_eq (by omega)
  simp only [decodePadded,sextet_digit _ (show a.toNat / 4 < 64 by omega),sextet_digit _ (show a.toNat % 4 * 16 < 64 by omega),
    Option.bind_eq_bind,Option.bind_some,if_pos zero,if_true,whole]

theorem decodePadded_two (a b : UInt8) :
    decodePadded (digit (a.toNat / 4)) (digit (a.toNat % 4 * 16 + b.toNat / 16)) (digit (b.toNat % 16 * 4)) = some [a,b] := by
  have first := byte_lt a
  have second := byte_lt b
  have zero : b.toNat % 16 * 4 % 4 = 0 := by omega
  have whole : UInt8.ofNat (a.toNat / 4 * 4 + (a.toNat % 4 * 16 + b.toNat / 16) / 16) = a := ofNat_of_eq (by omega)
  have next : UInt8.ofNat ((a.toNat % 4 * 16 + b.toNat / 16) % 16 * 16 + b.toNat % 16 * 4 / 4) = b := ofNat_of_eq (by omega)
  simp only [decodePadded,sextet_digit _ (show a.toNat / 4 < 64 by omega),
    sextet_digit _ (show a.toNat % 4 * 16 + b.toNat / 16 < 64 by omega),
    sextet_digit _ (show b.toNat % 16 * 4 < 64 by omega),if_neg (digit_plain _ (show b.toNat % 16 * 4 < 64 by omega)),
    Option.bind_eq_bind,Option.bind_some,if_pos zero,whole,next]

/-- What is encoded decodes to the same bytes. -/
theorem decode_encode (bytes : List UInt8) : decode (encode bytes) = some bytes := by
  induction bytes using encode.induct with
  | case1 => rfl
  | case2 a => rw [encode,decode,if_pos ⟨rfl,rfl⟩,decodePadded_one]
  | case3 a b => rw [encode,decode,if_pos ⟨rfl,rfl⟩,decodePadded_two]
  | case4 a b c rest ih =>
    have first := byte_lt a
    have second := byte_lt b
    have third := byte_lt c
    have plain := digit_plain (c.toNat % 64) (by omega)
    have one : UInt8.ofNat (a.toNat / 4 * 4 + (a.toNat % 4 * 16 + b.toNat / 16) / 16) = a := ofNat_of_eq (by omega)
    have two : UInt8.ofNat ((a.toNat % 4 * 16 + b.toNat / 16) % 16 * 16 + (b.toNat % 16 * 4 + c.toNat / 64) / 4) = b :=
      ofNat_of_eq (by omega)
    have three : UInt8.ofNat ((b.toNat % 16 * 4 + c.toNat / 64) % 4 * 64 + c.toNat % 64) = c := ofNat_of_eq (by omega)
    rw [encode,decode,if_neg fun padded => plain padded.2]
    simp only [sextet_digit _ (show a.toNat / 4 < 64 by omega),sextet_digit _ (show a.toNat % 4 * 16 + b.toNat / 16 < 64 by omega),
      sextet_digit _ (show b.toNat % 16 * 4 + c.toNat / 64 < 64 by omega),sextet_digit _ (show c.toNat % 64 < 64 by omega),ih,
      Option.bind_eq_bind,Option.bind_some,one,two,three]

/-- Four characters for three bytes or fewer. -/
theorem length_encode (bytes : List UInt8) : (encode bytes).length = (bytes.length + 2) / 3 * 4 := by
  induction bytes using encode.induct with
  | case1 => rfl
  | case2 a => simp [encode]
  | case3 a b => simp [encode]
  | case4 a b c rest ih =>
    simp only [encode,List.length_cons,ih]
    omega

theorem digit_mem (n : Nat) : digit n ∈ alphabet := by
  rw [digit,List.getD_eq_getElem?_getD]
  cases found : alphabet[n]? with
  | none => decide +kernel
  | some c => exact List.mem_of_getElem? found

/-- The text has no characters but those of the alphabet and the padding. -/
theorem encode_chars (bytes : List UInt8) : ∀ c ∈ encode bytes, c ∈ '=' :: alphabet := by
  have digits : ∀ n, digit n ∈ '=' :: alphabet := fun n => List.mem_cons_of_mem _ (digit_mem n)
  have padding : '=' ∈ '=' :: alphabet := List.mem_cons_self
  induction bytes using encode.induct with
  | case1 => exact List.forall_mem_nil _
  | case2 a => simp only [encode,List.forall_mem_cons,digits,padding,true_and]; exact List.forall_mem_nil _
  | case3 a b => simp only [encode,List.forall_mem_cons,digits,padding,true_and]; exact List.forall_mem_nil _
  | case4 a b c rest ih => simp only [encode,List.forall_mem_cons,digits,true_and]; exact ih
end Proofstorm.Base64
