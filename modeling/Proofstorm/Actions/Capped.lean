import Proofstorm.Actions.Calls
import Proofstorm.Core.Text
import Proofstorm.Entries
import Mathlib.Data.Bool.AllAny

/-!
The public streams of a receipt are cut where their JSON text would pass 12 KiB.
The cut is found from the cost of each character, without writing the text, so the
costs are first shown to be those of the writer (`encodedLength_eq`). What is kept
is the longest part of the stream that fits (`Longest`).
-/
namespace Proofstorm.Actions
open Proofstorm.Core

/-- The bytes of a text as `serde_json` writes it. -/
def encodedLength (text : String) : Nat := (Json.str text).byteLength

/-! ### What a character costs -/

theorem utf8Len_append (left right : List Char) :
    String.utf8Len (left ++ right) = String.utf8Len left + String.utf8Len right := by
  induction left with
  | nil => simp
  | cons c rest ih =>
    rw [List.cons_append,String.utf8Len_cons,String.utf8Len_cons,ih]
    omega

theorem utf8Size_digitChar : ∀ digit < 16, (Nat.digitChar digit).utf8Size = 1 := by decide

theorem escape_short : ∀ c ∈ ['"','\\','\n','\r','\t',Char.ofNat 8,Char.ofNat 12], String.utf8Len (escape c) = 2 :=
  List.all_iff_forall_prop.mp (by decide)

/-- The cost that is foretold for a character is that of its escaped text. -/
theorem encodedBytes_eq (c : Char) : encodedBytes c = String.utf8Len (escape c) := by
  unfold encodedBytes
  split_ifs with short control
  · exact (escape_short c short).symm
  all_goals
    simp only [List.mem_cons,List.not_mem_nil,or_false,not_or] at short
    obtain ⟨quote,slash,line,feed,tab,back,form⟩ := short
    have notBack : c.toNat ≠ 8 := fun same => back (by rw [← same,Char.ofNat_toNat])
    have notForm : c.toNat ≠ 12 := fun same => form (by rw [← same,Char.ofNat_toNat])
    rw [escape,if_neg quote,if_neg slash,if_neg line,if_neg feed,if_neg tab,if_neg notBack,if_neg notForm]
  · have high := utf8Size_digitChar (c.toNat / 16) (by omega)
    have low := utf8Size_digitChar (c.toNat % 16) (by omega)
    rw [if_pos control]
    simp only [String.utf8Len_cons,String.utf8Len_nil,high,low]
    rfl
  · rw [if_neg control]
    simp

/-- What the characters cost together. -/
def cost (chars : List Char) : Nat := (chars.map encodedBytes).sum

@[simp] theorem cost_nil : cost [] = 0 := rfl

@[simp] theorem cost_cons (c : Char) (rest : List Char) : cost (c :: rest) = encodedBytes c + cost rest := by
  simp [cost]

theorem cost_eq (chars : List Char) : cost chars = String.utf8Len (chars.flatMap escape) := by
  induction chars with
  | nil => rfl
  | cons c rest ih => rw [cost_cons,List.flatMap_cons,utf8Len_append,encodedBytes_eq,ih]

/-- A text costs what its characters do, and two quotes. -/
theorem encodedLength_eq (text : String) : encodedLength text = 2 + cost text.toList := by
  rw [encodedLength,Json.byteLength,Json.write,writeStr,String.utf8ByteSize_ofList,List.cons_append,String.utf8Len_cons,
    utf8Len_append,← cost_eq]
  have quotes : String.utf8Len ['"'] + ('"').utf8Size = 2 := rfl
  omega

/-! ### What is kept of a stream -/

theorem retainedChars_leads (encoded : Nat) (chars : List Char) : retainedChars encoded chars <+: chars := by
  induction chars generalizing encoded with
  | nil => exact List.prefix_rfl
  | cons c rest ih =>
    unfold retainedChars
    split_ifs
    · exact List.nil_prefix
    · exact (List.prefix_cons_inj c).mpr (ih _)

theorem retainedChars_fits {encoded : Nat} (room : encoded ≤ 12 * 1024) (chars : List Char) :
    encoded + cost (retainedChars encoded chars) ≤ 12 * 1024 := by
  induction chars generalizing encoded with
  | nil => simpa [retainedChars] using room
  | cons c rest ih =>
    unfold retainedChars
    split_ifs with full
    · simpa using room
    · have later := ih (Nat.le_of_not_gt full)
      rw [cost_cons]
      omega

/-- Whatever part of the characters fits is a part of what is kept. -/
theorem retainedChars_longest {encoded : Nat} {chars part : List Char} (within : part <+: chars)
    (fits : encoded + cost part ≤ 12 * 1024) : part <+: retainedChars encoded chars := by
  induction chars generalizing encoded part with
  | nil => exact within
  | cons c rest ih =>
    cases part with
    | nil => exact List.nil_prefix
    | cons d others =>
      obtain ⟨rfl,later⟩ := List.cons_prefix_cons.mp within
      rw [cost_cons] at fits
      have more : ¬ encoded + encodedBytes d > 12 * 1024 := by omega
      rw [retainedChars,if_neg more]
      exact (List.prefix_cons_inj d).mpr (ih later (by omega))

/-- The longest part of a text, from its start to a character boundary, that is
    written in 12 KiB. -/
structure Longest (text kept : String) : Prop where
  part : kept.toList <+: text.toList
  fits : encodedLength kept ≤ 12 * 1024
  longest : ∀ other : String, other.toList <+: text.toList → encodedLength other ≤ 12 * 1024 →
    other.toList <+: kept.toList

theorem longest_retained (text : String) : Longest text (.ofList (retainedChars 2 text.toList)) where
  part := by
    rw [String.toList_ofList]
    exact retainedChars_leads 2 text.toList
  fits := by
    rw [encodedLength_eq,String.toList_ofList]
    exact retainedChars_fits (by decide) text.toList
  longest := by
    intro other within fits
    rw [encodedLength_eq] at fits
    rw [String.toList_ofList]
    exact retainedChars_longest within fits

theorem Longest.self {text : String} (fits : encodedLength text ≤ 12 * 1024) : Longest text text :=
  ⟨List.prefix_rfl,fits,fun _ within _ => within⟩

/-- A text that fits is kept to its end. -/
theorem retainedChars_all {text : String} (fits : encodedLength text ≤ 12 * 1024) :
    retainedChars 2 text.toList = text.toList := by
  have whole := (longest_retained text).longest text List.prefix_rfl fits
  rw [String.toList_ofList] at whole
  exact (retainedChars_leads 2 text.toList).eq_of_length_le whole.length_le

/-! ### The fields of a receipt -/

section
variable {fields : List (String × Json)} {field : String × Json} {key : String} (value : Json)

theorem insertField_less (less : field.1 < key) :
    insertField (field :: fields) key value = field :: insertField fields key value := by
  have before : decide (field.1 < key) = true := decide_eq_true less
  have passed : decide (field.1 ≤ key) = true := decide_eq_true less.le
  rw [insertField,List.takeWhile_cons,List.dropWhile_cons,before,passed]
  rfl

theorem dropWhile_after (after : ∀ other ∈ fields, key < other.1) :
    fields.dropWhile (fun other => other.1 ≤ key) = fields := by
  cases fields with
  | nil => rfl
  | cons other rest => exact List.dropWhile_cons_of_neg (by simpa using after other List.mem_cons_self)

theorem insertField_same (same : field.1 = key) (after : ∀ other ∈ fields, key < other.1) :
    insertField (field :: fields) key value = (key,value) :: fields := by
  have before : decide (field.1 < key) = false := decide_eq_false same.not_lt
  have passed : decide (field.1 ≤ key) = true := decide_eq_true same.le
  rw [insertField,List.takeWhile_cons,List.dropWhile_cons,before,passed]
  exact congrArg (List.cons (key,value)) (dropWhile_after after)

theorem insertField_more (more : key < field.1) :
    insertField (field :: fields) key value = (key,value) :: field :: fields := by
  have before : decide (field.1 < key) = false := decide_eq_false more.not_gt
  have passed : decide (field.1 ≤ key) = false := decide_eq_false more.not_ge
  rw [insertField,List.takeWhile_cons,List.dropWhile_cons,before,passed]
  rfl
end

/-- The value of a field, in the entries of an object. -/
def fieldOf (fields : List (String × Json)) (key : String) : Option Json :=
  (fields.find? fun field => field.1 == key).map Prod.snd

theorem fieldOf_cons (field : String × Json) (fields : List (String × Json)) (key : String) :
    fieldOf (field :: fields) key = if field.1 = key then some field.2 else fieldOf fields key := by
  rw [fieldOf,List.find?_cons]
  by_cases here : field.1 = key
  · simp [here]
  · have apart : (field.1 == key) = false := by simpa using here
    rw [apart,if_neg here]
    rfl

theorem get_object (fields : List (String × Json)) (key : String) : (Json.object fields).get key = fieldOf fields key := by
  rw [Json.object,Json.get,Fields.toList_ofList]
  rfl

section
variable {fields : List (String × Json)}

theorem mem_insertField {key : String} {value : Json} {entry : String × Json}
    (member : entry ∈ insertField fields key value) : entry = (key,value) ∨ entry ∈ fields := by
  rw [insertField,List.mem_append,List.mem_cons] at member
  obtain before | here | after := member
  · exact .inr ((List.takeWhile_sublist _).subset before)
  · exact .inl here
  · exact .inr ((List.dropWhile_sublist _).subset after)

theorem sorted_insertField (sorted : Entries.Sorted fields) (key : String) (value : Json) :
    Entries.Sorted (insertField fields key value) := by
  induction fields with
  | nil => exact List.pairwise_singleton _ _
  | cons field rest ih =>
    rcases lt_trichotomy field.1 key with less | same | more
    · rw [insertField_less value less]
      refine List.pairwise_cons.mpr ⟨fun other member => ?_,ih sorted.tail⟩
      obtain rfl | later := mem_insertField member
      · exact less
      · exact sorted.head other later
    · rw [insertField_same value same (same ▸ sorted.head)]
      exact List.pairwise_cons.mpr ⟨same ▸ sorted.head,sorted.tail⟩
    · rw [insertField_more value more]
      refine List.pairwise_cons.mpr ⟨fun other member => ?_,sorted⟩
      obtain rfl | later := List.mem_cons.mp member
      · exact more
      · exact more.trans (sorted.head other later)

theorem fieldOf_insertField (sorted : Entries.Sorted fields) (key : String) (value : Json) (other : String) :
    fieldOf (insertField fields key value) other = if key = other then some value else fieldOf fields other := by
  induction fields with
  | nil => exact fieldOf_cons (key,value) [] other
  | cons field rest ih =>
    rcases lt_trichotomy field.1 key with less | same | more
    · rw [insertField_less value less,fieldOf_cons,fieldOf_cons,ih sorted.tail]
      by_cases here : field.1 = other
      · have apart : key ≠ other := fun same => (less.trans_eq same).ne here
        rw [if_pos here,if_neg apart,if_pos here]
      · rw [if_neg here,if_neg here]
    · rw [insertField_same value same (same ▸ sorted.head),fieldOf_cons,fieldOf_cons,same]
      split_ifs <;> rfl
    · rw [insertField_more value more]
      exact fieldOf_cons (key,value) (field :: rest) other
end

/-! ### One stream -/

/-- The entries of an object are those of a map: their keys are in order, none twice. -/
def Ordered (receipt : Json) : Prop := ∀ fields, receipt = .obj fields → Entries.Sorted fields.toList

/-- What a cut of one stream leaves of a receipt. -/
structure CappedAt (field : String) (receipt result : Json) : Prop where
  ordered : Ordered result
  stream : ∀ text, receipt.get field = some (.str text) →
    ∃ kept, result.get field = some (.str kept) ∧ Longest text kept
  flagged : result = receipt ∨
    result.get field ≠ receipt.get field ∧ result.get "output_truncated" = some (.bool true)
  streams : (∀ text, receipt.get field ≠ some (.str text)) → result = receipt
  others : ∀ key, key ≠ field → key ≠ "output_truncated" → result.get key = receipt.get key

section
variable {receipt : Json} {field : String}

theorem CappedAt.same (ordered : Ordered receipt)
    (fits : ∀ text, receipt.get field = some (.str text) → encodedLength text ≤ 12 * 1024) :
    CappedAt field receipt receipt where
  ordered := ordered
  stream := fun text there => ⟨text,there,.self (fits text there)⟩
  flagged := .inl rfl
  streams := fun _ => rfl
  others := fun _ _ _ => rfl

theorem capStream_fits (fits : ∀ text, receipt.get field = some (.str text) → encodedLength text ≤ 12 * 1024) :
    capStream receipt field = receipt := by
  unfold capStream
  split
  · rename_i fields text there
    have whole := retainedChars_all (fits text there)
    simp [whole]
  · rfl

theorem capStream_capped (ordered : Ordered receipt) (apart : field ≠ "output_truncated") :
    CappedAt field receipt (capStream receipt field) := by
  by_cases fits : ∀ text, receipt.get field = some (.str text) → encodedLength text ≤ 12 * 1024
  · rw [capStream_fits fits]
    exact .same ordered fits
  · obtain ⟨text,there,long⟩ : ∃ text, receipt.get field = some (.str text) ∧ ¬ encodedLength text ≤ 12 * 1024 := by
      simpa using fits
    cases receipt with
    | obj fields =>
      have sorted := ordered fields rfl
      have kept := longest_retained text
      have differ : String.ofList (retainedChars 2 text.toList) ≠ text := fun same => long (same ▸ kept.fits)
      have shorter : (retainedChars 2 text.toList).length < text.toList.length := by
        refine lt_of_le_of_ne (retainedChars_leads 2 text.toList).length_le fun same => differ ?_
        rw [(retainedChars_leads 2 text.toList).eq_of_length same,String.ofList_toList]
      have once := sorted_insertField sorted field (.str (.ofList (retainedChars 2 text.toList)))
      have cut : capStream (.obj fields) field = .object (insertField (insertField fields.toList field
          (.str (.ofList (retainedChars 2 text.toList)))) "output_truncated" (.bool true)) := by
        simp only [capStream,there,if_pos shorter]
      have found : ∀ key, (capStream (.obj fields) field).get key =
          if "output_truncated" = key then some (.bool true)
          else if field = key then some (.str (.ofList (retainedChars 2 text.toList))) else (Json.obj fields).get key := by
        intro key
        rw [cut,get_object,fieldOf_insertField once,fieldOf_insertField sorted]
        rfl
      have here := found field
      rw [if_neg (Ne.symm apart),if_pos rfl] at here
      constructor
      · intro made same
        rw [cut,Json.object] at same
        cases same
        rw [Fields.toList_ofList]
        exact sorted_insertField once _ _
      · intro text' there'
        cases there.symm.trans there'
        exact ⟨_,here,kept⟩
      · refine .inr ⟨?_,by rw [found,if_pos rfl]⟩
        rw [here,there]
        exact fun same => differ (Json.str.inj (Option.some.inj same))
      · intro none_
        exact absurd there (none_ text)
      · intro key other another
        rw [found,if_neg (Ne.symm another),if_neg (Ne.symm other)]
    | null | bool | num | str | arr => cases there
end

/-! ### Both streams -/

/-- What the cut of both streams leaves of a receipt. -/
structure Capped (receipt result : Json) : Prop where
  streams : ∀ field ∈ ["stdout","stderr"], ∀ text, receipt.get field = some (.str text) →
    ∃ kept, result.get field = some (.str kept) ∧ Longest text kept
  /-- The flag is set where a stream is cut, and nothing changes where none is. -/
  flagged : (∃ field ∈ ["stdout","stderr"], result.get field ≠ receipt.get field) →
    result.get "output_truncated" = some (.bool true)
  whole : (∀ field ∈ ["stdout","stderr"], result.get field = receipt.get field) → result = receipt
  others : ∀ key ∉ ["stdout","stderr","output_truncated"], result.get key = receipt.get key
  untyped : ∀ field ∈ ["stdout","stderr"], (∀ text, receipt.get field ≠ some (.str text)) →
    result.get field = receipt.get field
  again : capPublicStreams result = result

theorem capPublicStreams_capped {receipt : Json} (ordered : Ordered receipt) : Capped receipt (capPublicStreams receipt) := by
  have first : CappedAt "stdout" receipt (capStream receipt "stdout") := capStream_capped ordered (by decide)
  have second : CappedAt "stderr" (capStream receipt "stdout") (capPublicStreams receipt) :=
    capStream_capped first.ordered (by decide)
  have out : (capPublicStreams receipt).get "stdout" = (capStream receipt "stdout").get "stdout" :=
    second.others "stdout" (by decide) (by decide)
  have err : (capStream receipt "stdout").get "stderr" = receipt.get "stderr" :=
    first.others "stderr" (by decide) (by decide)
  have streams : ∀ field ∈ ["stdout","stderr"], ∀ text, receipt.get field = some (.str text) →
      ∃ kept, (capPublicStreams receipt).get field = some (.str kept) ∧ Longest text kept := by
    simp only [List.forall_mem_cons,List.not_mem_nil,false_implies,implies_true,and_true]
    constructor
    · intro text there
      rw [out]
      exact first.stream text there
    · intro text there
      exact second.stream text (err.trans there)
  have untyped : ∀ field ∈ ["stdout","stderr"], (∀ text, receipt.get field ≠ some (.str text)) →
      (capPublicStreams receipt).get field = receipt.get field := by
    simp only [List.forall_mem_cons,List.not_mem_nil,false_implies,implies_true,and_true]
    constructor
    · intro untyped
      rw [out,first.streams untyped]
    · intro untyped
      rw [capPublicStreams,capStream_fits (fun text there => absurd (err.symm.trans there) (untyped text)),err]
  constructor
  · exact streams
  · simp only [List.exists_mem_cons_iff,List.not_mem_nil,false_and,exists_false,or_false]
    rintro (cut | cut)
    · obtain same | ⟨_,flag⟩ := first.flagged
      · exact absurd (out.trans (congrArg (Json.get · "stdout") same)) cut
      · obtain same | ⟨_,flag'⟩ := second.flagged
        · rw [same,flag]
        · exact flag'
    · obtain same | ⟨_,flag⟩ := second.flagged
      · exact absurd ((congrArg (Json.get · "stderr") same).trans err) cut
      · exact flag
  · simp only [List.forall_mem_cons,List.not_mem_nil,false_implies,implies_true,and_true]
    rintro ⟨sameOut,sameErr⟩
    have one : capStream receipt "stdout" = receipt := first.flagged.resolve_right fun cut =>
      cut.1 (out.symm.trans sameOut)
    have two : capPublicStreams receipt = capStream receipt "stdout" := second.flagged.resolve_right fun cut =>
      cut.1 (sameErr.trans err.symm)
    exact two.trans one
  · intro key outside
    simp only [List.mem_cons,List.not_mem_nil,or_false,not_or] at outside
    obtain ⟨notOut,notErr,notFlag⟩ := outside
    exact (second.others key notErr notFlag).trans (first.others key notOut notFlag)
  · exact untyped
  · -- What is kept of a stream fits, so neither is cut a second time.
    have fits : ∀ field ∈ ["stdout","stderr"], ∀ text, (capPublicStreams receipt).get field = some (.str text) →
        encodedLength text ≤ 12 * 1024 := by
      intro field member text there
      by_cases typed : ∃ original, receipt.get field = some (.str original)
      · obtain ⟨original,before⟩ := typed
        obtain ⟨kept,after,longest⟩ := streams field member original before
        cases there.symm.trans after
        exact longest.fits
      · exact absurd ⟨text,(untyped field member fun original before => typed ⟨original,before⟩).symm.trans there⟩ typed
    rw [capPublicStreams,capStream_fits (fits "stdout" (by decide)),capStream_fits (fits "stderr" (by decide))]

end Proofstorm.Actions
