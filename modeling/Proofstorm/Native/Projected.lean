import Proofstorm.Native.Receipts

/-!
A receipt shows nothing but permitted leaves. What a field selects is one of four
outcomes (`Selects`), each said of the document and not of the loop, and a receipt
is made of them field by field. Two streams whose selected leaves agree have one
receipt, and two whose selected leaves fail in the same way have one error.
-/
namespace Proofstorm.Native
open Proofstorm.Core (Json)
open Proofstorm.Bridge (NativeCommand receiptFields)
open Proofstorm.Lifecycle (parseU64 unsigned)
open Proofstorm.Publication (splitOnce)

/-! ### The type checks -/

theorem parseU64_isSome (text : String) : (parseU64 text).isSome ↔ IsDecimal text := by
  have read : (parseU64 text).isSome ↔ unsigned text.toList ≠ [] ∧ (∀ c ∈ unsigned text.toList, c.isDigit) ∧
      Nat.ofDigitChars 10 (unsigned text.toList) 0 < 2 ^ 64 := by
    have size : UInt64.size = 2 ^ 64 := rfl
    simp only [parseU64,List.all_eq_true,size]
    split_ifs with shape fits
    · simp only [Option.isSome_some,true_iff]
      exact ⟨shape.1,shape.2,fits⟩
    · simp only [Option.isSome_none,Bool.false_eq_true,false_iff]
      rintro ⟨_,_,bounded⟩
      exact fits bounded
    · simp only [Option.isSome_none,Bool.false_eq_true,false_iff]
      rintro ⟨some_,digits,_⟩
      exact shape ⟨some_,digits⟩
  rw [read]
  constructor
  · rintro ⟨some_,digits,fits⟩
    refine ⟨unsigned text.toList,?_,some_,digits,fits⟩
    unfold unsigned
    split
    · rename_i same
      exact .inr same
    · exact .inl rfl
  · rintro ⟨digits,plain | signed,some_,each,fits⟩
    · rw [plain,Lifecycle.unsigned_digits each]
      exact ⟨some_,each,fits⟩
    · rw [signed]
      exact ⟨some_,each,fits⟩

theorem asU64_isSome (number : String) : (Json.num number).asU64.isSome ↔ IsUnsigned number := by
  simp only [Json.asU64,Json.digits,List.all_eq_true,IsUnsigned]
  split_ifs with shape
  · rw [Option.filter_some]
    split_ifs with fits
    · simp only [Option.isSome_some,true_iff]
      exact ⟨shape.1,shape.2,of_decide_eq_true fits⟩
    · simp only [Option.isSome_none,Bool.false_eq_true,false_iff]
      rintro ⟨_,_,bounded⟩
      exact fits (decide_eq_true bounded)
  · simp only [Option.filter_none,Option.isSome_none,Bool.false_eq_true,false_iff]
    rintro ⟨some_,digits,_⟩
    exact shape ⟨some_,digits⟩

theorem asStr_any {item : Json} {words : List String} :
    (item.asStr.any (· ∈ words)) = true ↔ ∃ word ∈ words, item = .str word := by
  cases item <;> simp [Json.asStr]

theorem asBool_isSome {item : Json} : item.asBool.isSome ↔ ∃ value, item = .bool value := by
  cases item <;> simp [Json.asBool]

/-- A number, or a text that is read as one. -/
theorem safeNumber_iff {item : Json} :
    (item.asU64.isSome || item.asStr.any fun text => (parseU64 text).isSome) = true ↔
      (∃ number, IsUnsigned number ∧ item = .num number) ∨ ∃ text, IsDecimal text ∧ item = .str text := by
  cases item with
  | num number => simp [asU64_isSome,Json.asStr]
  | str text =>
    have decimal := parseU64_isSome text
    simpa [Json.asU64,Json.asStr] using decimal
  | null => simp [Json.asU64,Json.asStr]
  | bool value => simp [Json.asU64,Json.asStr]
  | arr items => simp [Json.asU64,Json.asStr]
  | obj fields => simp [Json.asU64,Json.asStr]

theorem status_not_boolean : ∀ field ∈ statusFields, field ∉ booleanFields ∧ field ∉ numberFields ∧
    field ∉ lifecycleFields := by decide

theorem boolean_not_number : ∀ field ∈ booleanFields, field ∉ numberFields ∧ field ∉ lifecycleFields := by decide

theorem number_not_lifecycle : ∀ field ∈ numberFields, field ∉ lifecycleFields := by decide

variable {field : String}

variable {item value value' : Json} {error : String} {fields : List String} {selected : BTreeMap String Json}

theorem safeValue_iff (plain : field ∉ lifecycleFields) :
    safeValue field item ↔ Permitted field item := by
  constructor
  · intro safe
    unfold safeValue at safe
    split_ifs at safe with status boolean number
    · obtain ⟨word,allowed,rfl⟩ := asStr_any.mp safe
      exact .status status allowed
    · obtain ⟨value,rfl⟩ := asBool_isSome.mp safe
      exact .boolean boolean value
    · obtain ⟨text,unsigned,rfl⟩ | ⟨text,decimal,rfl⟩ := safeNumber_iff.mp safe
      · exact .number number unsigned
      · exact .decimal number decimal
  · intro permitted
    unfold safeValue
    cases permitted with
    | status here allowed =>
      rw [if_pos here]
      exact asStr_any.mpr ⟨_,allowed,rfl⟩
    | boolean here value =>
      have other : field ∉ statusFields := fun status => (status_not_boolean field status).1 here
      rw [if_neg other,if_pos here]
      rfl
    | number here unsigned =>
      have other : field ∉ statusFields := fun status => (status_not_boolean field status).2.1 here
      have another : field ∉ booleanFields := fun boolean => (boolean_not_number field boolean).1 here
      rw [if_neg other,if_neg another,if_pos here]
      exact safeNumber_iff.mpr (.inl ⟨_,unsigned,rfl⟩)
    | decimal here decimal =>
      have other : field ∉ statusFields := fun status => (status_not_boolean field status).2.1 here
      have another : field ∉ booleanFields := fun boolean => (boolean_not_number field boolean).1 here
      rw [if_neg other,if_neg another,if_pos here]
      exact safeNumber_iff.mpr (.inr ⟨_,decimal,rfl⟩)
    | seedState _ => exact absurd (by decide) plain
    | requiresPassphrase _ => exact absurd (by decide) plain
    | sessionState _ => exact absurd (by decide) plain

theorem Permitted.lifecycle (permitted : Permitted field item)
    (lifecycle : field ∈ lifecycleFields) :
    (field = "seedAccess.state" ∧ ∃ word ∈ seedStates, item = .str word) ∨
    (field = "seedAccess.requiresPassphrase" ∧ ∃ value, item = .bool value) ∨
    (field = "cocoSession.state" ∧ ∃ word ∈ sessionStates, item = .str word) := by
  cases permitted with
  | status here _ => exact absurd lifecycle (status_not_boolean field here).2.2
  | boolean here _ => exact absurd lifecycle (boolean_not_number field here).2
  | number here _ => exact absurd lifecycle (number_not_lifecycle field here)
  | decimal here _ => exact absurd lifecycle (number_not_lifecycle field here)
  | seedState allowed => exact .inl ⟨rfl,_,allowed,rfl⟩
  | requiresPassphrase value => exact .inr (.inl ⟨rfl,value,rfl⟩)
  | sessionState allowed => exact .inr (.inr ⟨rfl,_,allowed,rfl⟩)

theorem safeLifecycle_iff (lifecycle : field ∈ lifecycleFields) :
    safeLifecycle field item ↔ Permitted field item := by
  constructor
  · intro safe
    unfold safeLifecycle at safe
    split_ifs at safe with seed passphrase session
    · obtain ⟨word,allowed,rfl⟩ := asStr_any.mp safe
      exact seed ▸ .seedState allowed
    · obtain ⟨value,rfl⟩ := asBool_isSome.mp safe
      exact passphrase ▸ .requiresPassphrase value
    · obtain ⟨word,allowed,rfl⟩ := asStr_any.mp safe
      exact session ▸ .sessionState allowed
  · intro permitted
    obtain ⟨rfl,word,allowed,rfl⟩ | ⟨rfl,value,rfl⟩ | ⟨rfl,word,allowed,rfl⟩ := permitted.lifecycle lifecycle
    · exact asStr_any.mpr ⟨word,allowed,rfl⟩
    · rfl
    · exact asStr_any.mpr ⟨word,allowed,rfl⟩

/-! ### One field -/

/-- What a field selects of a document. -/
inductive Selects (value : Json) (field : String) : Except String Json → Prop
  | leaf {leaf : Json} (there : leafAt value field = some leaf) (permitted : Permitted field leaf) :
      Selects value field (.ok leaf)
  | uninitialized (none_ : Uninitialized value field) : Selects value field (.ok .null)
  | missing (missing : Missing value field) : Selects value field (.error fieldMissing)
  | mistyped (mistyped : Mistyped value field) : Selects value field (.error fieldTypeInvalid)

theorem path_plain : ∀ field ∈ receiptFields, field ∉ lifecycleFields → path field = [field] := by decide

/-- A field of the lifecycle is a leaf of an object, and each of them has one dot. -/
theorem path_lifecycle (lifecycle : field ∈ lifecycleFields) :
    ∃ parent leaf, splitOnce ['.'] field.toList = some (parent,leaf) ∧ path field = [.ofList parent,.ofList leaf] ∧
      (String.ofList parent = "seedAccess" ↔ field ∈ ["seedAccess.state","seedAccess.requiresPassphrase"]) := by
  revert field
  simp only [lifecycleFields,List.forall_mem_cons,List.not_mem_nil,false_implies,implies_true,and_true]
  exact ⟨⟨_,_,rfl,rfl,by decide⟩,⟨_,_,rfl,rfl,by decide⟩,⟨_,_,rfl,rfl,by decide⟩⟩

theorem leafAt_plain (value : Json) (allowed : field ∈ receiptFields) (plain : field ∉ lifecycleFields) :
    leafAt value field = value.get field := by
  rw [leafAt,path_plain field allowed plain,List.foldlM_cons]
  exact bind_pure _

theorem leafAt_inner (value : Json) {field parent leaf : String} (keys : path field = [parent,leaf]) :
    leafAt value field = (value.get parent).bind fun node => node.get leaf := by
  rw [leafAt,keys,List.foldlM_cons]
  refine congrArg (Option.bind (value.get parent)) (funext fun node => ?_)
  rw [List.foldlM_cons]
  exact bind_pure _

theorem lifecycleValue_selects (lifecycle : field ∈ lifecycleFields) :
    Selects value field (lifecycleValue value field) := by
  obtain ⟨parent,leaf,split,keys,seed⟩ := path_lifecycle lifecycle
  have reached := leafAt_inner value keys
  rw [lifecycleValue,split,require_some,ok_bind]
  dsimp only
  cases there : value.get (.ofList parent) with
  | none =>
    rw [require_none,error_bind]
    refine .missing ⟨by rw [reached,there]; rfl,fun none_ => ?_⟩
    have null := none_.2
    rw [← seed.mpr none_.1,there] at null
    cases null
  | some node =>
    rw [there,Option.bind_some] at reached
    rw [require_some,ok_bind]
    split_ifs with null
    · rw [null.2]
      exact .uninitialized ⟨seed.mp null.1,by rw [← null.1,there,null.2]⟩
    · have initialized : ¬ Uninitialized value field := fun none_ => by
        have here := none_.2
        rw [← seed.mpr none_.1,there] at here
        exact null ⟨seed.mpr none_.1,Option.some.inj here⟩
      cases found : node.get (.ofList leaf) with
      | none => exact .missing ⟨reached.trans found,initialized⟩
      | some item =>
        rw [require_some,ok_bind]
        by_cases safe : safeLifecycle field item = true
        · rw [ensure_of safe]
          exact .leaf (reached.trans found) ((safeLifecycle_iff lifecycle).mp safe)
        · rw [ensure_error safe]
          exact .mistyped ⟨item,reached.trans found,fun permitted => safe ((safeLifecycle_iff lifecycle).mpr permitted)⟩

theorem selectField_selects (value : Json) (allowed : field ∈ receiptFields) :
    Selects value field (selectField value field) := by
  unfold selectField
  split_ifs with lifecycle
  · exact lifecycleValue_selects lifecycle
  · have reached := leafAt_plain value allowed lifecycle
    cases there : value.get field with
    | none =>
      have within : ["seedAccess.state","seedAccess.requiresPassphrase"] ⊆ lifecycleFields := by decide
      exact .missing ⟨reached.trans there,fun none_ => lifecycle (within none_.1)⟩
    | some item =>
      rw [require_some,ok_bind]
      by_cases safe : safeValue field item = true
      · rw [ensure_of safe]
        exact .leaf (reached.trans there) ((safeValue_iff lifecycle).mp safe)
      · rw [ensure_error safe]
        exact .mistyped ⟨item,reached.trans there,fun permitted => safe ((safeValue_iff lifecycle).mpr permitted)⟩

theorem Uninitialized.leafAt_none (none_ : Uninitialized value field) :
    leafAt value field = none := by
  obtain ⟨here,null⟩ := none_
  have keys : ∃ leaf, path field = ["seedAccess",leaf] := by
    simp only [List.mem_cons,List.not_mem_nil,or_false] at here
    obtain rfl | rfl := here
    · exact ⟨"state",by decide⟩
    · exact ⟨"requiresPassphrase",by decide⟩
  obtain ⟨leaf,keys⟩ := keys
  rw [leafAt_inner value keys,null]
  rfl

/-- Where both documents have a leaf to show, the leaves at the path of the field
    tell which one it is. -/
theorem Selects.unique {item' : Json}
    (selects : Selects value field (.ok item)) (selects' : Selects value' field (.ok item'))
    (same : leafAt value field = leafAt value' field) : item = item' := by
  cases selects with
  | leaf there =>
    cases selects' with
    | leaf there' => exact Option.some.inj (there.symm.trans (same.trans there'))
    | uninitialized none_ => exact absurd (there.symm.trans (same.trans none_.leafAt_none)) nofun
  | uninitialized none_ =>
    cases selects' with
    | leaf there' => exact absurd (there'.symm.trans (same.symm.trans none_.leafAt_none)) nofun
    | uninitialized none_' => rfl

theorem Selects.of_missing {outcome : Except String Json}
    (selects : Selects value field outcome) (missing : Missing value field) : outcome = .error fieldMissing := by
  cases selects with
  | leaf there => exact absurd (there.symm.trans missing.1) nofun
  | uninitialized none_ => exact absurd none_ missing.2
  | missing _ => rfl
  | mistyped mistyped =>
    obtain ⟨leaf,there,_⟩ := mistyped
    exact absurd (there.symm.trans missing.1) nofun

theorem Selects.of_mistyped {outcome : Except String Json}
    (selects : Selects value field outcome) (mistyped : Mistyped value field) : outcome = .error fieldTypeInvalid := by
  obtain ⟨leaf,there,refused⟩ := mistyped
  cases selects with
  | leaf there' permitted => exact absurd (Option.some.inj (there'.symm.trans there) ▸ permitted) refused
  | uninitialized none_ => exact absurd (there.symm.trans none_.leafAt_none) nofun
  | missing missing => exact absurd (there.symm.trans missing.1) nofun
  | mistyped _ => rfl

/-- A field fails by what is missing or mistyped, and by nothing else of the document. -/
theorem selectField_error {field : String} (allowed : field ∈ receiptFields) :
    selectField value field = .error error ↔
      error = fieldMissing ∧ Missing value field ∨ error = fieldTypeInvalid ∧ Mistyped value field := by
  have selects := selectField_selects value allowed
  constructor
  · intro failed
    rw [failed] at selects
    cases selects with
    | missing missing => exact .inl ⟨rfl,missing⟩
    | mistyped mistyped => exact .inr ⟨rfl,mistyped⟩
  · rintro (⟨rfl,missing⟩ | ⟨rfl,mistyped⟩)
    · exact selects.of_missing missing
    · exact selects.of_mistyped mistyped

/-! ### All fields -/

/-- A receipt holds what each of the fields selects, whatever came before. -/
theorem selectFields_ok {result : BTreeMap String Json}
    (done : selectFields value selected fields = .ok result) :
    (∀ field ∈ fields, ∃ item, selectField value field = .ok item ∧ result[field]? = some item) ∧
      ∀ key ∉ fields, result[key]? = selected[key]? := by
  induction fields generalizing selected with
  | nil =>
    cases done
    exact ⟨nofun,fun _ _ => rfl⟩
  | cons field rest ih =>
    obtain ⟨item,one,others⟩ := bind_ok.mp done
    obtain ⟨each,kept⟩ := ih others
    refine ⟨List.forall_mem_cons.mpr ⟨⟨item,one,?_⟩,each⟩,fun key outside => ?_⟩
    · by_cases again : field ∈ rest
      · obtain ⟨item',same,there⟩ := each field again
        cases one.symm.trans same
        exact there
      · rw [kept field again,BTreeMap.get_insert,if_pos rfl]
    · obtain ⟨other,later⟩ := not_or.mp (List.mem_cons.not.mp outside)
      rw [kept key later,BTreeMap.get_insert,if_neg (Ne.symm other)]

theorem selectFields_error
    (failed : selectFields value selected fields = .error error) : ∃ field ∈ fields, selectField value field = .error error := by
  induction fields generalizing selected with
  | nil => cases failed
  | cons field rest ih =>
    unfold selectFields at failed
    cases one : selectField value field with
    | error first =>
      rw [one,error_bind] at failed
      cases failed
      exact ⟨field,List.mem_cons_self,one⟩
    | ok item =>
      rw [one,ok_bind] at failed
      obtain ⟨other,member,found⟩ := ih failed
      exact ⟨other,List.mem_cons_of_mem _ member,found⟩

/-- The first field that fails tells the error, so two documents whose fields fail
    alike have one error. -/
theorem selectFields_alike {selected' : BTreeMap String Json}
    (alike : ∀ field ∈ fields, ∀ error, selectField value field = .error error ↔
      selectField value' field = .error error) (failed : selectFields value selected fields = .error error) :
    selectFields value' selected' fields = .error error := by
  induction fields generalizing selected selected' with
  | nil => cases failed
  | cons field rest ih =>
    obtain ⟨here,later⟩ := List.forall_mem_cons.mp alike
    unfold selectFields at failed ⊢
    cases one : selectField value field with
    | error first =>
      rw [one] at failed
      rw [(here first).mp one]
      exact failed
    | ok item =>
      rw [one,ok_bind] at failed
      cases other : selectField value' field with
      | error first => exact absurd ((here first).mpr other ▸ one) nofun
      | ok item' =>
        rw [ok_bind]
        exact ih later failed

theorem validate_fields {command : NativeCommand} (valid : command.validate = .ok ())
    (mode : command.output.mode = .jsonFields) : ∀ field ∈ command.output.fields, field ∈ receiptFields := by
  unfold Bridge.NativeCommand.validate at valid
  cases binding : command.privateIo with
  | none =>
    simp only [binding,bind_ok,ensure_ok,mode,if_true] at valid
    obtain ⟨_,_,_,_,_,_,_,_,allowed⟩ := valid
    exact allowed
  | some io =>
    simp only [binding,bind_ok,ensure_ok,mode,if_true] at valid
    obtain ⟨_,_,_,_,_,_,_,_,_,_,allowed⟩ := valid
    exact allowed

/-! ### The stream -/

/-- A stream is read to its end where each of its items is a document. -/
theorem lastDocument_read (items : List (Option Json)) (last : Option Json) :
    (∃ documents : List Json, items = documents.map some ∧ lastDocument last items = .ok (documents.getLast?.or last)) ∨
      (∀ documents : List Json, items ≠ documents.map some) ∧ lastDocument last items = .error formatInvalid := by
  induction items generalizing last with
  | nil => exact .inl ⟨[],rfl,rfl⟩
  | cons item rest ih =>
    unfold lastDocument
    cases item with
    | none =>
      refine .inr ⟨fun documents same => ?_,rfl⟩
      cases documents <;> cases same
    | some value =>
      rw [require_some,ok_bind]
      obtain ⟨documents,rfl,read⟩ | ⟨never,failed⟩ := ih (some value)
      · refine .inl ⟨value :: documents,rfl,read.trans ?_⟩
        rw [List.getLast?_cons]
        cases documents.getLast? <;> rfl
      · refine .inr ⟨fun documents same => ?_,failed⟩
        cases documents with
        | nil => cases same
        | cons _ others => exact never others (List.cons.inj same).2

section
variable [JsonStream]

/-- A projection fails for its stream, or is that of the last document. -/
theorem projectReceipt_cases (bytes : List UInt8) (fields : List String) :
    ((∀ value, ¬ EndsWith bytes value) ∧ projectReceipt bytes fields = .error formatInvalid) ∨
      ∃ value, EndsWith bytes value ∧
        projectReceipt bytes fields = (selectFields value ∅ fields).map fun selected => .object selected.toList := by
  unfold projectReceipt
  obtain ⟨documents,items,read⟩ | ⟨never,failed⟩ := lastDocument_read (JsonStream.items bytes) none
  · rw [read,ok_bind]
    rcases List.eq_nil_or_concat documents with rfl | ⟨earlier,value,rfl⟩
    · refine .inl ⟨fun value => ?_,rfl⟩
      rintro ⟨earlier,same⟩
      have lists := items.symm.trans same
      simp at lists
    · refine .inr ⟨value,⟨earlier,by rw [items,List.concat_eq_append]⟩,?_⟩
      simp only [List.concat_eq_append,List.getLast?_append,List.getLast?_singleton,Option.some_or,require_some,ok_bind]
      cases selectFields value ∅ fields <;> rfl
  · rw [failed,error_bind]
    refine .inl ⟨fun value => ?_,rfl⟩
    rintro ⟨earlier,same⟩
    exact never _ same

/-- Two streams fail alike: both are read or neither is, and each field is missing,
    or mistyped, in both of their last documents or in neither. -/
def FailAlike (fields : List String) (bytes bytes' : List UInt8) : Prop :=
  ((∃ value, EndsWith bytes value) ↔ ∃ value, EndsWith bytes' value) ∧
    ∀ value value', EndsWith bytes value → EndsWith bytes' value' → ∀ field ∈ fields,
      (Missing value field ↔ Missing value' field) ∧ (Mistyped value field ↔ Mistyped value' field)

/-- What a failure tells. -/
def Explains (fields : List String) (bytes : List UInt8) (error : String) : Prop :=
  error = formatInvalid ∧ (∀ value, ¬ EndsWith bytes value) ∨
    ∃ value, EndsWith bytes value ∧ ∃ field ∈ fields,
      error = fieldMissing ∧ Missing value field ∨ error = fieldTypeInvalid ∧ Mistyped value field

section
variable {fields : List String} {bytes bytes' : List UInt8} {result result' : Json} {error : String}

theorem projectReceipt_ok (done : projectReceipt bytes fields = .ok result) :
    ∃ value, EndsWith bytes value ∧ ∃ selected, selectFields value ∅ fields = .ok selected ∧
      result = .object selected.toList := by
  obtain ⟨_,failed⟩ | ⟨value,ends,same⟩ := projectReceipt_cases bytes fields
  · exact absurd (failed.symm.trans done) nofun
  · rw [same] at done
    cases one : selectFields value ∅ fields with
    | error error =>
      rw [one] at done
      cases done
    | ok selected =>
      rw [one] at done
      cases done
      exact ⟨value,ends,selected,one,rfl⟩

theorem projectReceipt_error (failed : projectReceipt bytes fields = .error error) :
    error = formatInvalid ∧ (∀ value, ¬ EndsWith bytes value) ∨
      ∃ value, EndsWith bytes value ∧ selectFields value ∅ fields = .error error := by
  obtain ⟨never,invalid⟩ | ⟨value,ends,same⟩ := projectReceipt_cases bytes fields
  · cases invalid.symm.trans failed
    exact .inl ⟨rfl,never⟩
  · rw [same] at failed
    cases one : selectFields value ∅ fields with
    | error first =>
      rw [one] at failed
      cases failed
      exact .inr ⟨value,ends,one⟩
    | ok selected =>
      rw [one] at failed
      cases failed

section
variable (allowed : ∀ field ∈ fields, field ∈ receiptFields)
include allowed

/-- The receipt is a function of the selected leaves. -/
theorem projectReceipt_leaves (done : projectReceipt bytes fields = .ok result)
    (done' : projectReceipt bytes' fields = .ok result')
    (same : ∀ value value', EndsWith bytes value → EndsWith bytes' value' →
      ∀ field ∈ fields, leafAt value field = leafAt value' field) : result = result' := by
  obtain ⟨value,ends,selected,made,rfl⟩ := projectReceipt_ok done
  obtain ⟨value',ends',selected',made',rfl⟩ := projectReceipt_ok done'
  obtain ⟨each,others⟩ := selectFields_ok made
  obtain ⟨each',others'⟩ := selectFields_ok made'
  suffices one : selected = selected' by rw [one]
  refine Std.ExtTreeMap.ext_getElem? fun key => ?_
  by_cases member : key ∈ fields
  · obtain ⟨item,selects,there⟩ := each key member
    obtain ⟨item',selects',there'⟩ := each' key member
    have shown := selectField_selects value (allowed key member)
    have shown' := selectField_selects value' (allowed key member)
    rw [selects] at shown
    rw [selects'] at shown'
    rw [there,there',shown.unique shown' (same value value' ends ends' key member)]
  · rw [others key member,others' key member]

theorem projectReceipt_permitted (done : projectReceipt bytes fields = .ok result) :
    ∃ leaves : List (String × Json), result = .object leaves ∧ ∀ leaf ∈ leaves, leaf.1 ∈ fields ∧
      (Permitted leaf.1 leaf.2 ∨ leaf.1 ∈ lifecycleFields ∧ leaf.2 = .null) := by
  obtain ⟨value,ends,selected,made,rfl⟩ := projectReceipt_ok done
  obtain ⟨each,others⟩ := selectFields_ok made
  refine ⟨selected.toList,rfl,fun (field,leaf) member => ?_⟩
  have there : selected[field]? = some leaf := Std.ExtTreeMap.mem_toList_iff_getElem?_eq_some.mp member
  have requested : field ∈ fields := by
    by_contra outside
    rw [others field outside] at there
    simp at there
  obtain ⟨item,selects,found⟩ := each field requested
  cases there.symm.trans found
  have shown := selectField_selects value (allowed field requested)
  rw [selects] at shown
  refine ⟨requested,?_⟩
  cases shown with
  | leaf _ permitted => exact .inl permitted
  | uninitialized none_ =>
    have within : ["seedAccess.state","seedAccess.requiresPassphrase"] ⊆ lifecycleFields := by decide
    exact .inr ⟨within none_.1,rfl⟩

theorem projectReceipt_explained
    (failed : projectReceipt bytes fields = .error error) : Explains fields bytes error := by
  obtain invalid | ⟨value,ends,failed⟩ := projectReceipt_error failed
  · exact .inl invalid
  · obtain ⟨field,member,one⟩ := selectFields_error failed
    exact .inr ⟨value,ends,field,member,(selectField_error (allowed field member)).mp one⟩
end

theorem projectReceipt_alike (allowed : ∀ field ∈ fields, field ∈ receiptFields) (alike : FailAlike fields bytes bytes')
    (failed : projectReceipt bytes fields = .error error) : projectReceipt bytes' fields = .error error := by
  obtain ⟨rfl,never⟩ | ⟨value,ends,failed⟩ := projectReceipt_error failed
  · obtain ⟨_,invalid⟩ | ⟨value',ends',_⟩ := projectReceipt_cases bytes' fields
    · exact invalid
    · obtain ⟨value,ends⟩ := alike.1.mpr ⟨value',ends'⟩
      exact absurd ends (never value)
  · obtain ⟨never,_⟩ | ⟨value',ends',same⟩ := projectReceipt_cases bytes' fields
    · obtain ⟨value',ends'⟩ := alike.1.mp ⟨value,ends⟩
      exact absurd ends' (never value')
    · have each : ∀ field ∈ fields, ∀ error, selectField value field = .error error ↔ selectField value' field = .error error := by
        intro field member error
        obtain ⟨missing,mistyped⟩ := alike.2 value value' ends ends' field member
        rw [selectField_error (allowed field member),selectField_error (allowed field member),missing,mistyped]
      rw [same,selectFields_alike each failed]
      rfl
end

/-- What a receipt of these fields keeps to itself. -/
structure Private (fields : List String) : Prop where
  /-- Two receipts differ only where the selected leaves do. -/
  leaves : ∀ bytes bytes' result result', projectReceipt bytes fields = .ok result →
    projectReceipt bytes' fields = .ok result' → (∀ value value', EndsWith bytes value → EndsWith bytes' value' →
      ∀ field ∈ fields, leafAt value field = leafAt value' field) → result = result'
  permitted : ∀ bytes result, projectReceipt bytes fields = .ok result →
    ∃ leaves : List (String × Json), result = .object leaves ∧ ∀ leaf ∈ leaves, leaf.1 ∈ fields ∧
      (Permitted leaf.1 leaf.2 ∨ leaf.1 ∈ lifecycleFields ∧ leaf.2 = .null)
  explained : ∀ bytes error, projectReceipt bytes fields = .error error → Explains fields bytes error
  alike : ∀ bytes bytes' error, FailAlike fields bytes bytes' → projectReceipt bytes fields = .error error →
    projectReceipt bytes' fields = .error error

theorem projected_receipts_private (command : NativeCommand) (valid : command.validate = .ok ())
    (mode : command.output.mode = .jsonFields) : Private command.output.fields := by
  have allowed := validate_fields valid mode
  constructor
  · intro bytes bytes' result result' done done' same
    exact projectReceipt_leaves allowed done done' same
  · intro bytes result done
    exact projectReceipt_permitted allowed done
  · intro bytes error failed
    exact projectReceipt_explained allowed failed
  · intro bytes bytes' error alike failed
    exact projectReceipt_alike allowed alike failed
end

/-- A reader that knows one text, which holds one document. -/
abbrev oneDocument (value : Json) : JsonStream where
  items bytes := if bytes = (String.ofList value.write).toUTF8.toList then [some value] else [none]

theorem projected_receipts_private_settled :
    @Private (oneDocument (.object [("settled",.bool true),("preimage",.str "00ff")])) ["settled"] :=
  @projected_receipts_private (oneDocument (.object [("settled",.bool true),("preimage",.str "00ff")]))
    ⟨none,"",["lncli","lookupinvoice"],30,⟨.jsonFields,["settled"]⟩⟩ (by decide) rfl

end Proofstorm.Native
