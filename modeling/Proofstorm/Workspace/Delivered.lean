import Proofstorm.Workspace.Paging

/-!
What a reply takes up in the control channel, where each of its characters is
escaped twice (`twice`). A byte of text takes up seven at most, so a reply to a read
always fits, whatever the file holds. A page of a listing fits where its names have
nothing to escape, and need not fit otherwise.
-/
namespace Proofstorm.Workspace
open Proofstorm.Actions (encodedBytes encodedLength encodedLength_eq cost cost_nil cost_cons encodedBytes_eq utf8Size_digitChar)
open Proofstorm.Core (Json Fields Items escape writeStr)
open Proofstorm.Upload (Failure byteLength)

/-! ### Characters -/

@[simp] theorem cost_append (left right : List Char) : cost (left ++ right) = cost left + cost right := by
  simp [cost]

/-- The bytes of a text in a document that is a string of another. -/
def twice (chars : List Char) : Nat := cost (chars.flatMap escape)

@[simp] theorem twice_cons (c : Char) (rest : List Char) : twice (c :: rest) = cost (escape c) + twice rest := by
  rw [twice,List.flatMap_cons,cost_append]
  rfl

/-- A character that is written as it is. -/
def Plain (c : Char) : Prop := c ≠ '"' ∧ c ≠ '\\' ∧ 32 ≤ c.toNat

variable {c : Char} {chars : List Char} {reply : Json} {bound : Nat}

theorem Plain.escape (plain : Plain c) : escape c = [c] := by
  obtain ⟨quote,slash,high⟩ := plain
  have line : c ≠ '\n' := fun same => absurd (same ▸ high) (by decide)
  have feed : c ≠ '\r' := fun same => absurd (same ▸ high) (by decide)
  have tab : c ≠ '\t' := fun same => absurd (same ▸ high) (by decide)
  have back : c.toNat ≠ 8 := by omega
  have form : c.toNat ≠ 12 := by omega
  have control : ¬ c.toNat < 32 := by omega
  rw [Core.escape,if_neg quote,if_neg slash,if_neg line,if_neg feed,if_neg tab,if_neg back,if_neg form,if_neg control]

theorem Plain.cost (plain : Plain c) : cost (Core.escape c) = c.utf8Size := by
  rw [plain.escape,cost_cons,encodedBytes_eq,plain.escape]
  simp

theorem cost_digit : ∀ digit < 16, encodedBytes (Nat.digitChar digit) = 1 := by decide

/-- A byte of text takes up seven at most. -/
theorem cost_escape (c : Char) : cost (escape c) ≤ 7 * c.utf8Size := by
  have some_ := c.utf8Size_pos
  by_cases plain : Plain c
  · rw [plain.cost]
    omega
  · have short : cost (escape c) ≤ 7 := by
      unfold escape
      split_ifs with quote slash line feed tab back form control
      all_goals try decide
      · have high := cost_digit (c.toNat / 16) (by omega)
        have low := cost_digit (c.toNat % 16) (by omega)
        simp only [cost_cons,cost_nil,high,low]
        decide
      · exact absurd ⟨quote,slash,Nat.le_of_not_lt control⟩ plain
    omega

theorem twice_le (chars : List Char) : twice chars ≤ 7 * (chars.map Char.utf8Size).sum := by
  induction chars with
  | nil => exact Nat.zero_le _
  | cons c rest ih =>
    have here := cost_escape c
    rw [twice_cons,List.map_cons,List.sum_cons]
    omega

theorem twice_plain (plain : ∀ c ∈ chars, Plain c) : twice chars = (chars.map Char.utf8Size).sum := by
  induction chars with
  | nil => rfl
  | cons c rest ih =>
    obtain ⟨here,others⟩ := List.forall_mem_cons.mp plain
    rw [twice_cons,here.cost,ih others,List.map_cons,List.sum_cons]

/-- A string costs its characters and two quotes, which are escaped as well. -/
theorem cost_writeStr (text : String) : cost (writeStr text) = 4 + twice text.toList := by
  have quote : encodedBytes '"' = 2 := by decide
  rw [writeStr,List.cons_append,cost_cons,cost_append,cost_cons,cost_nil,quote]
  exact (by omega : 2 + (twice text.toList + (2 + 0)) = 4 + twice text.toList)

theorem Plain.encodedBytes (plain : Plain c) : encodedBytes c = c.utf8Size := by
  rw [encodedBytes_eq,plain.escape]
  simp

theorem cost_isDigit (digit : c.isDigit) : encodedBytes c = 1 := by
  simp only [Char.isDigit,Bool.and_eq_true,decide_eq_true_eq,ge_iff_le] at digit
  obtain ⟨low,high⟩ := digit
  have lowNat : 48 ≤ c.toNat := UInt32.le_iff_toNat_le.mp low
  have highNat : c.toNat ≤ 57 := UInt32.le_iff_toNat_le.mp high
  have plain : Plain c := by
    refine ⟨?_,?_,by omega⟩
    · rintro rfl
      exact absurd lowNat (by decide)
    · rintro rfl
      exact absurd highNat (by decide)
  rw [plain.encodedBytes]
  exact Char.utf8Size_eq_one_iff.mpr (UInt32.le_iff_toNat_le.mpr (highNat.trans (by decide)))

theorem cost_digits (digits : ∀ c ∈ chars, c.isDigit) : cost chars = chars.length := by
  induction chars with
  | nil => rfl
  | cons c rest ih =>
    obtain ⟨here,others⟩ := List.forall_mem_cons.mp digits
    rw [cost_cons,cost_isDigit here,ih others,List.length_cons,Nat.add_comm]

/-- A number costs its digits. -/
theorem cost_nat {n places : Nat} (positive : 0 < places) (small : n < 10 ^ places) : cost (Json.nat n).write ≤ places := by
  have text : (Json.nat n).write = Nat.toDigits 10 n := by
    show (toString n).toList = _
    exact Nat.toList_repr
  rw [text,cost_digits fun c member => Nat.isDigit_of_mem_toDigits (by decide) (by decide) member]
  exact (Nat.length_toDigits_le_iff (by decide) positive).mpr small

/-! ### Delivery -/

/-- A reply is carried where it costs no more than the budget: the other limit is
    never the first to be passed. -/
def Fits (reply : Json) : Prop := 2 + cost reply.write ≤ 11000

theorem utf8Size_le_encodedBytes (c : Char) : c.utf8Size ≤ encodedBytes c := by
  have short : ∀ c ∈ ['"','\\','\n','\r','\t',Char.ofNat 8,Char.ofNat 12], c.utf8Size ≤ 2 :=
    List.all_iff_forall_prop.mp (by decide)
  have wide := c.utf8Size_le_four
  unfold Actions.encodedBytes
  split_ifs with member control
  · exact short c member
  · omega
  · exact le_refl _

theorem sum_le_cost (chars : List Char) : (chars.map Char.utf8Size).sum ≤ cost chars := by
  induction chars with
  | nil => exact le_refl _
  | cons c rest ih =>
    have here := utf8Size_le_encodedBytes c
    rw [List.map_cons,List.sum_cons,cost_cons]
    omega

/-- A reply reaches the client as it is. -/
def Delivered (reply : Json) : Prop := deliver reply = .ofList reply.write

theorem deliver_fits (fits : Fits reply) : Delivered reply := by
  have whole := sum_le_cost reply.write
  unfold Fits at fits
  have within : ¬ (byteLength (.ofList reply.write) > maxBridgeBytes ∨ encodedLength (.ofList reply.write) > 11000) := by
    rw [encodedLength_eq,Upload.byteLength,String.toList_ofList,maxBridgeBytes]
    omega
  exact if_neg within

theorem deliver_over (beyond : ¬ Fits reply) : deliver reply = budgetError := by
  unfold Fits at beyond
  refine if_pos (.inr ?_)
  rw [encodedLength_eq,String.toList_ofList]
  omega

theorem budgetError_fits : encodedLength budgetError ≤ 11000 := by
  rw [encodedLength_eq,budgetError,String.toList_ofList]
  decide +kernel

/-- The replies that are not carried are those that do not fit, and the client is told so. -/
theorem delivered_iff (reply : Json) : Delivered reply ↔ Fits reply := by
  refine ⟨fun same => ?_,deliver_fits⟩
  by_contra beyond
  have short := budgetError_fits
  rw [← deliver_over beyond,same,encodedLength_eq,String.toList_ofList] at short
  exact beyond short

/-- What becomes of a reply: it is carried where it fits, and replaced otherwise. -/
structure Carried (reply : Json) : Prop where
  fits : Fits reply → Delivered reply
  beyond : ¬ Fits reply → deliver reply = budgetError

theorem carried (reply : Json) : Carried reply := ⟨deliver_fits,deliver_over⟩

/-! ### Reads -/

theorem write_object (fields : List (String × Json)) :
    (Json.object fields).write = '\x7b' :: (Fields.ofList fields).write ++ ['\x7d'] := rfl

theorem cost_string (text : String) : cost (Json.str text).write = 4 + twice text.toList := cost_writeStr text

/-- The parts of a reply to a read, each within its bound. -/
structure ReadReply.Bounded (reply : ReadReply) : Prop where
  path : byteLength reply.path ≤ 512
  bytes : reply.bytes ≤ readBytes
  content : byteLength reply.content ≤ readBytes
  offset : reply.offset < 2 ^ 63
  next : ∀ next ∈ reply.nextOffset, next < 2 ^ 64

theorem ReadReply.Bounded.fits {reply : ReadReply} (bounded : reply.Bounded) : Fits reply.toJson := by
  have path := twice_le reply.path.toList
  have content := twice_le reply.content.toList
  have bytes : cost (Json.nat reply.bytes).write ≤ 4 :=
    cost_nat (by decide) (bounded.bytes.trans_lt (by decide))
  have offset : cost (Json.nat reply.offset).write ≤ 19 := cost_nat (by decide) (bounded.offset.trans (by decide))
  have next : cost (nullable .nat reply.nextOffset).write ≤ 20 := by
    cases given : reply.nextOffset with
    | none => decide
    | some next => exact cost_nat (by decide) ((bounded.next next given).trans (by decide))
  have sizes := bounded.path
  have sizes' := bounded.content
  unfold Upload.byteLength at sizes sizes'
  unfold readBytes at sizes'
  have names : cost (writeStr "bytes") + cost (writeStr "content") + cost (writeStr "next_offset") +
      cost (writeStr "offset") + cost (writeStr "path") = 53 := by decide
  have marks : encodedBytes '\x7b' = 1 ∧ encodedBytes '\x7d' = 1 ∧ encodedBytes ':' = 1 ∧ encodedBytes ',' = 1 := by decide
  obtain ⟨open_,close,colon,comma⟩ := marks
  unfold Fits ReadReply.toJson
  simp only [write_object,Fields.ofList,Core.Fields.write,cost_append,cost_cons,cost_nil,cost_string,open_,close,colon,comma]
  omega

/-! ### Listings -/

theorem cost_items_le {list : List Json} (each : ∀ value ∈ list, cost value.write ≤ bound) :
    cost (Items.ofList list).write ≤ list.length * (bound + 1) := by
  have comma : encodedBytes ',' = 1 := by decide
  induction list with
  | nil => exact Nat.zero_le _
  | cons head rest ih =>
    obtain ⟨here,others⟩ := List.forall_mem_cons.mp each
    have later := ih others
    rw [List.length_cons,Nat.add_mul]
    cases rest with
    | nil =>
      rw [Items.ofList,Items.ofList,Core.Items.write]
      omega
    | cons next rest =>
      rw [Items.ofList,Items.ofList,Core.Items.write,cost_append,cost_cons,comma]
      · rw [Items.ofList] at later
        omega
      · intro none_
        cases none_

theorem le_cost_items {list : List Json} (each : ∀ value ∈ list, bound ≤ cost value.write) :
    list.length * bound ≤ cost (Items.ofList list).write := by
  induction list with
  | nil => exact Nat.le_of_eq (Nat.zero_mul bound)
  | cons head rest ih =>
    obtain ⟨here,others⟩ := List.forall_mem_cons.mp each
    have later := ih others
    rw [List.length_cons,Nat.add_mul]
    cases rest with
    | nil =>
      rw [Items.ofList,Items.ofList,Core.Items.write]
      rw [List.length_nil]
      omega
    | cons next rest =>
      rw [Items.ofList,Items.ofList,Core.Items.write,cost_append,cost_cons]
      · rw [Items.ofList] at later
        omega
      · intro none_
        cases none_

theorem cost_array (list : List Json) : cost (Json.array list).write = 2 + cost (Items.ofList list).write := by
  have marks : encodedBytes '[' = 1 ∧ encodedBytes ']' = 1 := by decide
  rw [Json.array,Json.write,List.cons_append,cost_cons,cost_append,cost_cons,cost_nil,marks.1,marks.2]
  omega

theorem cost_nullable {text : Option String} (each : ∀ given ∈ text, twice given.toList ≤ bound) :
    cost (nullable .str text).write ≤ 4 + bound := by
  cases text with
  | none => exact Nat.le_trans (by decide : cost (nullable Json.str none).write ≤ 4) (Nat.le_add_right 4 bound)
  | some given =>
    have here := each given rfl
    rw [nullable,cost_string]
    omega

theorem ListReply.cost_eq (reply : ListReply) : cost reply.toJson.write =
    cost (Json.array (reply.entries.map .str)).write + cost (nullable .str reply.nextAfter).write +
      twice reply.path.toList + 44 := by
  have names : cost (writeStr "entries") + cost (writeStr "next_after") + cost (writeStr "path") = 33 := by decide
  have marks : encodedBytes '\x7b' = 1 ∧ encodedBytes '\x7d' = 1 ∧ encodedBytes ':' = 1 ∧ encodedBytes ',' = 1 := by decide
  obtain ⟨open_,close,colon,comma⟩ := marks
  unfold ListReply.toJson
  simp only [write_object,Fields.ofList,Core.Fields.write,cost_append,cost_cons,cost_nil,cost_string,open_,close,colon,comma]
  omega

/-- A name that a file system holds, with nothing to escape. -/
structure PlainName (name : String) : Prop where
  plain : ∀ c ∈ name.toList, Plain c
  length : byteLength name ≤ 255

theorem PlainName.twice {name : String} (plain : PlainName name) : twice name.toList ≤ 255 := by
  rw [twice_plain plain.plain]
  exact plain.length

/-- Sixteen names that have nothing to escape fit, whatever the path of their directory. -/
theorem ListReply.fits {reply : ListReply} (few : reply.entries.length ≤ 16) (path : byteLength reply.path ≤ 512)
    (entries : ∀ name ∈ reply.entries, PlainName name) (next : ∀ name ∈ reply.nextAfter, PlainName name) :
    Fits reply.toJson := by
  have escaped := twice_le reply.path.toList
  have onward : cost (nullable .str reply.nextAfter).write ≤ 4 + 255 := cost_nullable fun name given => (next name given).twice
  have names : cost (Items.ofList (reply.entries.map .str)).write ≤ (reply.entries.map Json.str).length * (259 + 1) := by
    refine cost_items_le fun value member => ?_
    obtain ⟨name,there,rfl⟩ := List.mem_map.mp member
    have short := (entries name there).twice
    rw [cost_string]
    omega
  unfold Upload.byteLength at path
  rw [List.length_map] at names
  rw [Fits,ListReply.cost_eq,cost_array]
  omega

theorem TasksReply.cost_eq (reply : TasksReply) : cost reply.toJson.write =
    cost (Json.array (reply.tasks.map Prod.snd)).write + cost (nullable .str reply.nextAfter).write + 28 := by
  have names : cost (writeStr "next_after") + cost (writeStr "tasks") = 23 := by decide
  have marks : encodedBytes '\x7b' = 1 ∧ encodedBytes '\x7d' = 1 ∧ encodedBytes ':' = 1 ∧ encodedBytes ',' = 1 := by decide
  obtain ⟨open_,close,colon,comma⟩ := marks
  unfold TasksReply.toJson
  simp only [write_object,Fields.ofList,Core.Fields.write,cost_append,cost_cons,cost_nil,open_,close,colon,comma]
  omega

/-- Eight states fit where each of them takes up 1325 bytes at most. -/
theorem TasksReply.fits {reply : TasksReply} (few : reply.tasks.length ≤ 8)
    (states : ∀ task ∈ reply.tasks, cost task.2.write ≤ 1325) (next : ∀ id ∈ reply.nextAfter, PlainName id) :
    Fits reply.toJson := by
  have onward : cost (nullable .str reply.nextAfter).write ≤ 4 + 255 := cost_nullable fun id given => (next id given).twice
  have shown : cost (Items.ofList (reply.tasks.map Prod.snd)).write ≤ (reply.tasks.map Prod.snd).length * (1325 + 1) := by
    refine cost_items_le fun value member => ?_
    obtain ⟨task,there,rfl⟩ := List.mem_map.mp member
    exact states task there
  rw [List.length_map] at shown
  rw [Fits,TasksReply.cost_eq,cost_array]
  omega

end Proofstorm.Workspace
