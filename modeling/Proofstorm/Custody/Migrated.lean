import Proofstorm.Custody.Migration

/-!
What the upgrade makes of the rows that the old format has written. After each
round, the rows that were read have their new texts (`Legacy.after`), and the
others wait under a key that no row has for long; of the rows of one owner and key
the first that was read has the key, and is spoilt by the second.
-/
namespace Proofstorm.Custody.Migration
open Proofstorm.Core (Json Items Fields)
open Proofstorm.Core.Json

/-! ### The old format -/

/-- The recipient of a record, with its session or its lease. -/
inductive Recipient
  | absent
  | null
  | fixed (principal : String) (leased : Bool) (authority : String) (expires : Option Nat)
  deriving DecidableEq

/-- A transfer of a session. -/
structure Legacy where
  id : Nat
  handle : String
  capacity : Nat
  /-- The authority of a grant is a session. -/
  source : Grant
  destination : Grant
  /-- The destination, or to whom it was handed off. -/
  receiver : Grant
  key : String
  maximumBytes : Nat
  recipient : Recipient
  record : Transfer
  deriving DecidableEq

def Recipient.toJson : Recipient → Option Json
  | .absent => none
  | .null => some .null
  | .fixed principal leased authority expires =>
    some (.object ([("principal",.str principal),(if leased then "lease" else "session",.str authority)] ++
      (expires.map fun at_ => ("expires_at_unix",Json.nat at_)).toList))

namespace Legacy

def oldKey (l : Legacy) : String := l.source.principal ++ "/" ++ l.source.authority ++ "/" ++ l.key

/-- The row as it was written. -/
def row (l : Legacy) : Row where
  id := l.id
  handle := l.handle
  requestKey := l.oldKey
  requestJson := requestText l.source l.destination l.maximumBytes
  sourceJson := grantIdentity l.source
  destinationJson := grantIdentity l.receiver
  metadata := (l.record.toJsonWith l.recipient.toJson).text
  capacity := l.capacity

/-- What `prepare` has checked before it wrote the row, and the types of its numbers. -/
structure Valid (l : Legacy) (workspace cell : String) : Prop where
  source : l.source.belongs workspace cell = true
  destination : l.destination.belongs workspace cell = true
  key : ident l.key = true
  wallets : l.source.wallet ≠ l.destination.wallet
  positive : l.maximumBytes ≠ 0
  record : l.record.Typed
end Legacy

/-- A file of the old format. -/
structure Written (file : File) (legacies : List Legacy) : Prop where
  version : file.version < 1
  rows : file.transfers.rows = legacies.map Legacy.row
  keys : (legacies.map Legacy.oldKey).Nodup
  valid : ∀ l ∈ legacies, l.Valid file.workspace file.cell

/-! ### What becomes of a row -/

/-- The grant of the owner. -/
def own (grant : Grant) : Grant := { grant with authority := "owner" }

def Recipient.read : Recipient → Option RecipientAuthority
  | .fixed principal _ authority _ => some ⟨principal,authority⟩
  | _ => none

namespace Legacy

/-- The key that the owner has for it. -/
def name (l : Legacy) : String := l.source.principal ++ "/owner/" ++ l.key

/-- The record that a replay answers with. -/
def migrated (l : Legacy) : Transfer := { l.record with recipient := l.recipient.read }

def clean (l : Legacy) : Row where
  id := l.id
  handle := l.handle
  requestKey := l.name
  requestJson := requestText (own l.source) (own l.destination) l.maximumBytes
  sourceJson := grantIdentity (own l.source)
  destinationJson := if l.recipient.read = none then grantIdentity (own l.receiver) else grantIdentity l.receiver
  metadata := (l.record.toJsonWith (l.recipient.toJson.map migrateRecipient)).text
  capacity := l.capacity

/-- Of the rows that were read, it is the first with its key. -/
def First (done : List Legacy) (l : Legacy) : Prop := done.find? (fun m => m.name = l.name) = some l

instance (done : List Legacy) (l : Legacy) : Decidable (l.First done) := by
  unfold First
  infer_instance

/-- Another row that was read has the same key. -/
def Shared (done : List Legacy) (l : Legacy) : Prop := ∃ m ∈ done, m ≠ l ∧ m.name = l.name

instance (done : List Legacy) (l : Legacy) : Decidable (l.Shared done) := by
  unfold Shared
  infer_instance

/-- The row after it was read. -/
def after (done : List Legacy) (l : Legacy) : Row :=
  { l.clean with
    requestKey := if l.First done then l.name else legacyKey l.id l.oldKey
    requestJson := if l.First done ∧ l.Shared done then "legacy-ambiguous" else l.clean.requestJson }

theorem after_request (done : List Legacy) (l : Legacy) : (l.after done).requestJson =
    if l.First done ∧ l.Shared done then "legacy-ambiguous" else l.clean.requestJson := rfl

def parked (l : Legacy) : Row := { l.row with requestKey := parkedKey l.id }

/-- The row in the course of the upgrade. -/
def place (done : List Legacy) (l : Legacy) : Row := if l ∈ done then l.after done else l.parked
end Legacy

/-! ### Texts are told apart -/

theorem ident_slash {text : String} (valid : ident text = true) : '/' ∉ text.toList := by
  intro member
  simp only [ident,Bool.and_eq_true,List.all_eq_true,Bool.or_eq_true,decide_eq_true_eq] at valid
  have letter := valid.2 '/' member
  revert letter
  decide

theorem splitSlash_append {before after : List Char} (plain : '/' ∉ before) :
    splitSlash (before ++ '/' :: after) = some (before,after) := by
  induction before with
  | nil => rfl
  | cons c rest ih =>
    have first := List.ne_of_not_mem_cons plain
    rw [List.cons_append,splitSlash,if_neg (Ne.symm first),ih (List.not_mem_of_not_mem_cons plain)]
    rfl

theorem splitSlash_none {text : List Char} (plain : '/' ∉ text) : splitSlash text = none := by
  induction text with
  | nil => rfl
  | cons c rest ih =>
    have first := List.ne_of_not_mem_cons plain
    rw [splitSlash,if_neg (Ne.symm first),ih (List.not_mem_of_not_mem_cons plain)]
    rfl

theorem splitn3_append {first second : String} (third : String) (one : '/' ∉ first.toList) (two : '/' ∉ second.toList) :
    splitn3 (first ++ "/" ++ second ++ "/" ++ third) = some (first,second,third) := by
  have shape : (first ++ "/" ++ second ++ "/" ++ third).toList = first.toList ++ '/' :: (second.toList ++ '/' :: third.toList) := by
    simp
  rw [splitn3,shape,splitSlash_append one,Option.bind_some]
  simp only [splitSlash_append two,Option.map_some,String.ofList_toList]

theorem splitn3_none {text : String} (plain : '/' ∉ text.toList) : splitn3 text = none := by
  rw [splitn3,splitSlash_none plain]
  rfl

theorem toString_slash (n : Nat) : '/' ∉ (toString n).toList := by
  intro member
  rw [Nat.toString_eq_repr,Nat.toList_repr] at member
  cases toDigits_digits n '/' member

theorem toString_injective {n m : Nat} (same : toString n = toString m) : n = m := by
  rw [Nat.toString_eq_repr,Nat.toString_eq_repr] at same
  have digits := congrArg String.toList same
  rw [Nat.toList_repr,Nat.toList_repr] at digits
  have back := congrArg Json.digits digits
  rw [digits_toDigits,digits_toDigits] at back
  exact Option.some.inj back

theorem toString_owner (n : Nat) : toString n ≠ "owner" := by
  intro same
  rw [Nat.toString_eq_repr] at same
  have digits := congrArg String.toList same
  rw [Nat.toList_repr] at digits
  have letter := toDigits_digits n 'o' (digits ▸ List.mem_cons_self)
  cases letter

theorem splitn3_parkedKey (id : Nat) : splitn3 (parkedKey id) = none := by
  refine splitn3_none ?_
  rw [parkedKey,String.toList_append,List.mem_append]
  rintro (member | member)
  · revert member
    decide
  · exact toString_slash id member

theorem parkedKey_injective {n m : Nat} (same : parkedKey n = parkedKey m) : n = m :=
  toString_injective (String.append_right_inj _ |>.mp same)

theorem splitn3_legacyKey (id : Nat) (key : String) : splitn3 (legacyKey id key) = some ("legacy",toString id,key) := by
  have shape : legacyKey id key = "legacy" ++ "/" ++ toString id ++ "/" ++ key := by
    rw [legacyKey]
    congr 2
  rw [shape]
  exact splitn3_append key (by decide) (toString_slash id)

/-! ### The columns of one row -/

theorem texts_read (list : List String) : (Json.ofText (texts list).text).bind (Json.list asStr) = some list := by
  rw [texts,ofText_text (texts_proper list),Option.bind_some,list_texts]

theorem owner_grantIdentity (grant : Grant) : owner (grantIdentity grant) = .ok (grantIdentity (own grant)) := by
  rw [owner,grantIdentity,texts_read]
  rfl

theorem requestText_read (source destination : Grant) (maximumBytes : Nat) :
    (Json.ofText (requestText source destination maximumBytes)).bind (Json.list some) =
      some [.str (grantIdentity source),.str (grantIdentity destination),.nat maximumBytes] := by
  have proper : (Json.array [.str (grantIdentity source),.str (grantIdentity destination),.nat maximumBytes]).Proper := by
    refine array_proper ?_
    simp only [List.forall_mem_cons]
    exact ⟨trivial,trivial,nat_proper _,List.forall_mem_nil _⟩
  rw [requestText,ofText_text proper,Option.bind_some,list_array]
  rfl

theorem migrateRequest_requestText (source destination : Grant) (maximumBytes : Nat) :
    migrateRequest (requestText source destination maximumBytes) = .ok (requestText (own source) (own destination) maximumBytes) := by
  simp only [migrateRequest,requestText_read,owner_grantIdentity,ok_bind]
  rfl

theorem migrateRecipient_fixed (principal : String) (leased : Bool) (authority : String) (expires : Option Nat) :
    (Recipient.fixed principal leased authority expires).toJson.map migrateRecipient =
      some (RecipientAuthority.toJson ⟨principal,authority⟩) := by
  cases leased <;> cases expires <;>
    simp [Recipient.toJson,migrateRecipient,removeEntry,insertEntry,Json.object,RecipientAuthority.toJson]

theorem migrateMetadata_toJsonWith (t : Transfer) (recipient : Option Json) :
    migrateMetadata (t.toJsonWith recipient) = t.toJsonWith (recipient.map migrateRecipient) := by
  have kept : t.fields.map (fun entry => if entry.1 = "recipient" then (entry.1,migrateRecipient entry.2) else entry) = t.fields := by
    simp [Transfer.fields]
  rw [Transfer.toJsonWith,Json.object,migrateMetadata,Core.Fields.toList_ofList,List.map_append,kept]
  cases recipient <;> rfl

theorem unassigned_toJsonWith (t : Transfer) (recipient : Recipient) :
    unassigned (t.toJsonWith recipient.toJson) = decide (recipient.read = none) := by
  have get : (t.toJsonWith recipient.toJson).get "recipient" = recipient.toJson := by
    have got := field_toJsonWith t recipient.toJson "recipient"
    have absent : field (.object t.fields) "recipient" = none := by simp [Transfer.fields,field_nil]
    rwa [if_pos rfl,absent,Option.or_none] at got
  rw [unassigned,get]
  cases recipient with
  | absent => rfl
  | null => rfl
  | fixed => rfl

namespace Legacy

variable {l : Legacy} {workspace cell : String}

theorem belongs_ident {grant : Grant} (belongs : grant.belongs workspace cell = true) :
    ident grant.principal = true ∧ ident grant.authority = true := by
  simp only [Grant.belongs,Bool.and_eq_true,List.all_eq_true] at belongs
  exact ⟨belongs.2 _ (by simp),belongs.2 _ (by simp)⟩

theorem splitn3_oldKey (valid : l.Valid workspace cell) :
    splitn3 l.oldKey = some (l.source.principal,l.source.authority,l.key) :=
  splitn3_append l.key (ident_slash (belongs_ident valid.source).1) (ident_slash (belongs_ident valid.source).2)

theorem splitn3_name (valid : l.Valid workspace cell) : splitn3 l.name = some (l.source.principal,"owner",l.key) := by
  have shape : l.name = l.source.principal ++ "/" ++ "owner" ++ "/" ++ l.key := by
    have parts : "/owner/" = "/" ++ "owner" ++ "/" := by decide
    simp only [name,parts,String.append_assoc]
  rw [shape]
  exact splitn3_append l.key (ident_slash (belongs_ident valid.source).1) (by decide)

theorem recipient_proper (recipient : Recipient) : ∀ value ∈ recipient.toJson, value.Proper := by
  cases recipient with
  | absent => rintro _ ⟨⟩
  | null =>
    rintro _ ⟨⟩
    trivial
  | fixed principal leased authority expires =>
    rintro _ ⟨⟩
    refine object_proper ?_ ?_
    · cases leased <;> cases expires <;> simp
    · cases expires with
      | none => simp [str_proper]
      | some at_ => simp [str_proper,nat_proper]

theorem translate_row (valid : l.Valid workspace cell) : translate l.row = .ok l.clean := by
  have metadata : Json.ofText l.row.metadata = some (l.record.toJsonWith l.recipient.toJson) :=
    ofText_text (l.record.toJsonWith_proper (recipient_proper l.recipient))
  have source : owner l.row.sourceJson = .ok (grantIdentity (own l.source)) := owner_grantIdentity l.source
  have receiver : owner l.row.destinationJson = .ok (grantIdentity (own l.receiver)) := owner_grantIdentity l.receiver
  have request : migrateRequest l.row.requestJson = .ok l.clean.requestJson := migrateRequest_requestText _ _ _
  have key : splitn3 l.row.requestKey = some (l.source.principal,l.source.authority,l.key) := splitn3_oldKey valid
  simp only [translate,metadata,source,request,key,require_some,ok_bind,unassigned_toJsonWith,migrateMetadata_toJsonWith,receiver]
  by_cases unread : l.recipient.read = none
  · simp [unread,clean,row,name,pure,Except.pure]
  · simp [unread,clean,row,name,pure,Except.pure]
end Legacy

/-! ### Keys -/

section
variable {legacies done : List Legacy} {workspace cell : String}

variable {l m : Legacy}

theorem Legacy.name_eq (one : l.Valid workspace cell) (other : m.Valid workspace cell) :
    l.name = m.name ↔ l.source.principal = m.source.principal ∧ l.key = m.key := by
  constructor
  · intro same
    have parts := congrArg splitn3 same
    rw [Legacy.splitn3_name one,Legacy.splitn3_name other] at parts
    simpa using parts
  · rintro ⟨principal,key⟩
    rw [Legacy.name,Legacy.name,principal,key]

/-- A key of an owner is no parked one and none of the legacy. -/
theorem Legacy.name_apart (valid : l.Valid workspace cell) (id : Nat) (key : String) :
    l.name ≠ parkedKey id ∧ l.name ≠ legacyKey id key := by
  constructor
  · intro same
    have parts := congrArg splitn3 same
    rw [Legacy.splitn3_name valid,splitn3_parkedKey] at parts
    cases parts
  · intro same
    have parts := congrArg splitn3 same
    rw [Legacy.splitn3_name valid,splitn3_legacyKey] at parts
    simp only [Option.some.injEq,Prod.mk.injEq] at parts
    exact toString_owner id parts.2.1.symm

theorem legacyKey_injective {n m : Nat} {one other : String} (same : legacyKey n one = legacyKey m other) : n = m := by
  have parts := congrArg splitn3 same
  rw [splitn3_legacyKey,splitn3_legacyKey] at parts
  simp only [Option.some.injEq,Prod.mk.injEq] at parts
  exact toString_injective parts.2.1

theorem legacyKey_parked (n m : Nat) (key : String) : legacyKey n key ≠ parkedKey m := by
  intro same
  have parts := congrArg splitn3 same
  rw [splitn3_legacyKey,splitn3_parkedKey] at parts
  cases parts

/-! ### The first of each key -/

theorem Legacy.First.mem (first : l.First done) : l ∈ done := List.mem_of_find?_eq_some first

theorem Legacy.First.unique (one : l.First done) (other : m.First done) (same : l.name = m.name) : l = m := by
  unfold Legacy.First at one other
  rw [same] at one
  exact Option.some.inj (one.symm.trans other)

theorem Legacy.first_exists (member : l ∈ done) : ∃ m : Legacy, m.First done ∧ m.name = l.name := by
  cases found : done.find? fun m => m.name = l.name with
  | none =>
    have missing := List.find?_eq_none.mp found l member
    simp at missing
  | some m =>
    have named : m.name = l.name := by simpa using List.find?_some found
    exact ⟨m,by rw [Legacy.First,named,found],named⟩

/-- A row that is read later changes nothing for those before it. -/
theorem Legacy.first_append (member : m ∈ done) : m.First (done ++ [l]) ↔ m.First done := by
  have found : (done.find? fun n => n.name = m.name).isSome := List.find?_isSome.mpr ⟨m,member,by simp⟩
  unfold Legacy.First
  rw [List.find?_append,Option.or_of_isSome found]

theorem Legacy.first_last (new : l ∉ done) : l.First (done ++ [l]) ↔ ∀ m ∈ done, m.name ≠ l.name := by
  unfold Legacy.First
  rw [List.find?_append]
  cases found : done.find? fun m => m.name = l.name with
  | none =>
    have missing := List.find?_eq_none.mp found
    simp only [Option.none_or,List.find?_cons_of_pos,decide_true,true_iff]
    exact fun m member => by simpa using missing m member
  | some m =>
    have member := List.mem_of_find?_eq_some found
    have named : m.name = l.name := by simpa using List.find?_some found
    refine iff_of_false (fun same => ?_) fun other => other m member named
    cases Option.some.inj same
    exact new member

theorem Legacy.shared_append (apart : m ≠ l) :
    m.Shared (done ++ [l]) ↔ m.Shared done ∨ l.name = m.name := by
  constructor
  · rintro ⟨n,member,other,same⟩
    rcases List.mem_append.mp member with before | last
    · exact .inl ⟨n,before,other,same⟩
    · cases List.mem_singleton.mp last
      exact .inr same
  · rintro (⟨n,member,other,same⟩ | same)
    · exact ⟨n,List.mem_append_left _ member,other,same⟩
    · exact ⟨l,List.mem_append_right _ List.mem_cons_self,Ne.symm apart,same⟩

theorem Legacy.after_append (member : m ∈ done) (apart : m ≠ l) (other : l.name ≠ m.name) :
    m.after (done ++ [l]) = m.after done := by
  simp only [Legacy.after,Legacy.first_append member,Legacy.shared_append apart,other,or_false]

/-! ### The statements -/

/-- Rows that stand for the transfers, in their order. -/
structure Stands (rows : Table Row) (legacies : List Legacy) (g : Legacy → Row) : Prop where
  rows : rows.rows = legacies.map g
  ids : ∀ l, (g l).id = l.id
  handles : ∀ l, (g l).handle = l.handle
  capacities : ∀ l, (g l).capacity = l.capacity

variable {rows : Table Row} {g : Legacy → Row}

section
variable (stands : Stands rows legacies g)
include stands

theorem Stands.same (one : l ∈ legacies)
    (other : m ∈ legacies) (same : l.id = m.id) : l = m := by
  have unique := rows.unique
  rw [stands.rows,List.map_map] at unique
  exact List.inj_on_of_nodup_map unique one other (show (g l).id = (g m).id by rw [stands.ids,stands.ids,same])

theorem Stands.assign {l : Legacy} (member : l ∈ legacies)
    {next : Row} (id : next.id = l.id) (handle : next.handle = l.handle) (capacity : next.capacity = l.capacity)
    (apart : ∀ m ∈ legacies, m ≠ l → (g m).requestKey ≠ next.requestKey) :
    ∃ after, assign rows next = .ok after ∧ Stands after legacies fun m => if m = l then next else g m := by
  have free : ∀ row ∈ rows.rows, row.id ≠ next.id → row.requestKey ≠ next.requestKey := by
    intro row there other
    rw [stands.rows] at there
    obtain ⟨m,among,rfl⟩ := List.mem_map.mp there
    refine apart m among ?_
    rintro rfl
    exact other ((stands.ids m).trans id.symm)
  refine ⟨_,by rw [Migration.assign,ensure_of free]; rfl,?_,?_,?_,?_⟩
  · show rows.rows.map _ = _
    rw [stands.rows,List.map_map]
    refine List.map_congr_left fun m among => ?_
    by_cases same : m = l
    · subst same
      have here : (g m).id = next.id := (stands.ids m).trans id.symm
      simp only [Function.comp_apply,if_pos here,if_true]
      cases next
      simp only [Row.mk.injEq,stands.ids,stands.handles,stands.capacities,true_and] at *
      exact ⟨id.symm,handle.symm,capacity.symm⟩
    · have there : (g m).id ≠ next.id := fun same_ => same (stands.same among member ((stands.ids m).symm.trans (same_.trans id)))
      simp only [Function.comp_apply,if_neg there,if_neg same]
  · intro m
    split_ifs with same
    · exact same ▸ id
    · exact stands.ids m
  · intro m
    split_ifs with same
    · exact same ▸ handle
    · exact stands.handles m
  · intro m
    split_ifs with same
    · exact same ▸ capacity
    · exact stands.capacities m

theorem Stands.spoil (key : String) :
    Stands (spoil rows key) legacies fun m => if (g m).requestKey = key then { g m with requestJson := "legacy-ambiguous" } else g m := by
  refine ⟨?_,?_,?_,?_⟩
  · show rows.rows.map _ = _
    rw [stands.rows,List.map_map]
    rfl
  · intro m
    split_ifs
    · exact stands.ids m
    · exact stands.ids m
  · intro m
    split_ifs
    · exact stands.handles m
    · exact stands.handles m
  · intro m
    split_ifs
    · exact stands.capacities m
    · exact stands.capacities m

theorem Stands.congr {h : Legacy → Row} (same : ∀ l ∈ legacies, g l = h l)
    (ids : ∀ l, (h l).id = l.id ∧ (h l).handle = l.handle ∧ (h l).capacity = l.capacity) : Stands rows legacies h :=
  ⟨stands.rows.trans (List.map_congr_left same),fun l => (ids l).1,fun l => (ids l).2.1,fun l => (ids l).2.2⟩
end

/-! ### The loops -/

/-- The rows that are not parked yet, and those that are. -/
theorem park_ok (stands : Stands rows legacies Legacy.row) (valid : ∀ l ∈ legacies, l.Valid workspace cell) :
    ∃ parked, park rows = .ok parked ∧ Stands parked legacies Legacy.parked := by
  have fold : ∀ (left : List Legacy) (done : List Legacy) (rows : Table Row), (∀ l ∈ left, l ∈ legacies) →
      Stands rows legacies (fun l => if l ∈ done then l.parked else l.row) →
      ∃ parked, (left.map Legacy.row).foldlM (fun rows row => assign rows { row with requestKey := parkedKey row.id }) rows = .ok parked ∧
        Stands parked legacies fun l => if l ∈ done ++ left then l.parked else l.row := by
    intro left
    induction left with
    | nil =>
      intro done rows _ stands
      exact ⟨rows,rfl,by simpa using stands⟩
    | cons l left ih =>
      intro done rows among stands
      obtain ⟨here,others⟩ := List.forall_mem_cons.mp among
      have apart : ∀ m ∈ legacies, m ≠ l →
          (if m ∈ done then m.parked else m.row).requestKey ≠ (l.parked).requestKey := by
        intro m member other
        split_ifs
        · exact fun same => other (stands.same member here (parkedKey_injective same))
        · intro same
          have parts := congrArg splitn3 (show m.oldKey = parkedKey l.id from same)
          rw [Legacy.splitn3_oldKey (valid m member),splitn3_parkedKey] at parts
          cases parts
      obtain ⟨after,assigned,stands⟩ := stands.assign here rfl rfl rfl apart
      have next : Stands after legacies fun m => if m ∈ done ++ [l] then m.parked else m.row := by
        refine stands.congr (fun m _ => ?_) fun m => by split_ifs <;> exact ⟨rfl,rfl,rfl⟩
        by_cases same : m = l
        · simp [same]
        · simp [same]
      obtain ⟨parked,rest,stands⟩ := ih (done ++ [l]) after others next
      refine ⟨parked,?_,by simpa using stands⟩
      rw [List.map_cons,List.foldlM_cons]
      show assign _ l.parked >>= _ = _
      rw [assigned,ok_bind,rest]
  obtain ⟨parked,ran,stands_⟩ := fold legacies [] rows (fun _ member => member) (by simpa using stands)
  refine ⟨parked,by rw [park,stands.rows]; exact ran,stands_.congr (fun l member => ?_) fun l => ⟨rfl,rfl,rfl⟩⟩
  simp [member]

theorem place_keys (done : List Legacy) (l : Legacy) :
    (l.place done).id = l.id ∧ (l.place done).handle = l.handle ∧ (l.place done).capacity = l.capacity := by
  unfold Legacy.place
  split_ifs <;> exact ⟨rfl,rfl,rfl⟩

/-- In the course of the upgrade a row has the key of an owner where it is the first one with it. -/
theorem place_key (one : l.Valid workspace cell) :
    (m.place done).requestKey = l.name ↔ m ∈ done ∧ m.First done ∧ m.name = l.name := by
  unfold Legacy.place
  split_ifs with member
  · by_cases first : m.First done
    · simp [Legacy.after,first,member]
    · simp only [Legacy.after,first,false_and,and_false,iff_false]
      exact fun same => (Legacy.name_apart one m.id m.oldKey).2 same.symm
  · simp only [member,false_and,iff_false]
    exact fun same => (Legacy.name_apart one m.id m.oldKey).1 same.symm

/-- What a round that gives the row a key of its own leaves of the others. -/
theorem place_other (apart : m ≠ l) (other : m ∈ done → l.name ≠ m.name) :
    m.place (done ++ [l]) = m.place done := by
  unfold Legacy.place
  by_cases member : m ∈ done
  · rw [if_pos (List.mem_append_left _ member),if_pos member,Legacy.after_append member apart (other member)]
  · rw [if_neg member,if_neg]
    rw [List.mem_append,List.mem_singleton]
    exact fun either => either.elim member apart

theorem place_first (new : l ∉ done) (unused : ∀ m ∈ done, m.name ≠ l.name) : l.place (done ++ [l]) = l.clean := by
  have first : l.First (done ++ [l]) := (Legacy.first_last new).mpr unused
  have alone : ¬ l.Shared (done ++ [l]) := by
    rintro ⟨m,member,other,same⟩
    rcases List.mem_append.mp member with before | last
    · exact unused m before same
    · exact other (List.mem_singleton.mp last)
  rw [Legacy.place,if_pos (by simp),Legacy.after,if_pos first,if_neg (fun both => alone both.2)]
  rfl

/-- The row of a key that is taken. -/
def Legacy.late (l : Legacy) : Row := { l.clean with requestKey := legacyKey l.id l.oldKey }

theorem place_late (new : l ∉ done) (member : m ∈ done) (same : m.name = l.name) :
    l.place (done ++ [l]) = l.late := by
  have later : ¬ l.First (done ++ [l]) := fun first => (Legacy.first_last new).mp first m member same
  rw [Legacy.place,if_pos (by simp),Legacy.after,if_neg later,if_neg (fun both => later both.1)]
  rfl

/-- The first row of a key is spoilt by the second. -/
theorem place_spoilt (member : m ∈ done) (apart : m ≠ l) (same : m.name = l.name) (first : m.First done) :
    m.place (done ++ [l]) = { m.place done with requestJson := "legacy-ambiguous" } := by
  have shared : m.Shared (done ++ [l]) := (Legacy.shared_append apart).mpr (.inr same.symm)
  have again : m.First (done ++ [l]) := (Legacy.first_append member).mpr first
  rw [Legacy.place,if_pos (List.mem_append_left _ member),Legacy.place,if_pos member,Legacy.after,Legacy.after,if_pos again,
    if_pos first,if_pos ⟨again,shared⟩]

theorem place_unspoilt (member : m ∈ done) (later : ¬ m.First done) : m.place (done ++ [l]) = m.place done := by
  have again : ¬ m.First (done ++ [l]) := fun first => later ((Legacy.first_append member).mp first)
  rw [Legacy.place,if_pos (List.mem_append_left _ member),Legacy.place,if_pos member,Legacy.after,Legacy.after,if_neg again,
    if_neg later,if_neg (fun both => again both.1),if_neg (fun both => later both.1)]

section
variable {rows : Table Row} {keys : List String} {l : Legacy}

section
variable (stands : Stands rows legacies (Legacy.place done)) (valid : ∀ l ∈ legacies, l.Valid workspace cell)
include stands valid

theorem migrateRow_first (member : l ∈ legacies) (new : l ∉ done)
    (names : ∀ name, name ∈ keys ↔ ∃ m ∈ done, m.name = name) (unused : l.name ∉ keys) :
    ∃ after, migrateRow (rows,keys) l.row = .ok (after,l.name :: keys) ∧ Stands after legacies (Legacy.place (done ++ [l])) := by
  have free : ∀ m ∈ done, m.name ≠ l.name := fun m among same => unused ((names _).mpr ⟨m,among,same⟩)
  have apart : ∀ m ∈ legacies, m ≠ l → (m.place done).requestKey ≠ l.clean.requestKey := fun m _ _ taken => by
    obtain ⟨among,_,same⟩ := (place_key (valid l member)).mp taken
    exact free m among same
  obtain ⟨after,assigned,stands⟩ := stands.assign member rfl rfl rfl apart
  refine ⟨after,?_,stands.congr (fun m _ => ?_) (place_keys _)⟩
  · rw [migrateRow,Legacy.translate_row (valid l member),ok_bind]
    show (if l.name ∉ keys then _ else _) = _
    rw [if_pos unused]
    show assign rows l.clean >>= _ = _
    rw [assigned]
    rfl
  · by_cases same : m = l
    · subst same
      rw [if_pos rfl,place_first new free]
    · rw [if_neg same]
      exact (place_other same fun among => Ne.symm (free m among)).symm

theorem migrateRow_late (member : l ∈ legacies) (new : l ∉ done)
    (names : ∀ name, name ∈ keys ↔ ∃ m ∈ done, m.name = name) (used : l.name ∈ keys) :
    ∃ after, migrateRow (rows,keys) l.row = .ok (after,keys) ∧ Stands after legacies (Legacy.place (done ++ [l])) := by
  obtain ⟨earlier,among,named⟩ := (names _).mp used
  have apart : ∀ m ∈ legacies, m ≠ l → (m.place done).requestKey ≠ l.late.requestKey := by
    intro m there other
    unfold Legacy.place
    split_ifs with before
    · by_cases first : m.First done
      · rw [Legacy.after,if_pos first]
        exact (Legacy.name_apart (valid m there) l.id l.oldKey).2
      · rw [Legacy.after,if_neg first]
        exact fun same => other (stands.same there member (legacyKey_injective same))
    · exact fun same => legacyKey_parked l.id m.id l.oldKey same.symm
  have spoilt := stands.spoil l.name
  obtain ⟨after,assigned,stands⟩ := spoilt.assign member rfl rfl rfl fun m there other => by
    have key : (if (m.place done).requestKey = l.name then { m.place done with requestJson := "legacy-ambiguous" }
        else m.place done).requestKey = (m.place done).requestKey := by split_ifs <;> rfl
    rw [key]
    exact apart m there other
  refine ⟨after,?_,stands.congr (fun m _ => ?_) (place_keys _)⟩
  · rw [migrateRow,Legacy.translate_row (valid l member),ok_bind]
    show (if l.name ∉ keys then _ else _) = _
    rw [if_neg (not_not_intro used)]
    show assign (spoil rows l.name) l.late >>= _ = _
    rw [assigned]
    rfl
  · by_cases same : m = l
    · subst same
      rw [if_pos rfl,place_late new among named]
    · rw [if_neg same]
      have key : (m.place done).requestKey = l.name ↔ m ∈ done ∧ m.First done ∧ m.name = l.name := place_key (valid l member)
      split_ifs with taken
      · obtain ⟨before,first,shared⟩ := key.mp taken
        exact (place_spoilt before same shared first).symm
      · by_cases before : m ∈ done
        · by_cases first : m.First done
          · exact (place_other same fun _ shared => taken (key.mpr ⟨before,first,shared.symm⟩)).symm
          · exact (place_unspoilt before first).symm
        · exact (place_other same fun before_ => absurd before_ before).symm
end

/-- The loop over the rows in any order. -/
theorem migrateRows_ok {left : List Legacy} (stands : Stands rows legacies (Legacy.place done))
    (valid : ∀ l ∈ legacies, l.Valid workspace cell) (among : ∀ l ∈ left, l ∈ legacies) (new : (done ++ left).Nodup)
    (names : ∀ name, name ∈ keys ↔ ∃ m ∈ done, m.name = name) :
    ∃ after keys', (left.map Legacy.row).foldlM migrateRow (rows,keys) = .ok (after,keys') ∧
      Stands after legacies (Legacy.place (done ++ left)) := by
  induction left generalizing rows keys done with
  | nil => exact ⟨rows,keys,rfl,by rwa [List.append_nil]⟩
  | cons l left ih =>
    obtain ⟨here,others⟩ := List.forall_mem_cons.mp among
    have fresh : l ∉ done := fun before => (List.nodup_append.mp new).2.2 l before l List.mem_cons_self rfl
    have split : done ++ l :: left = done ++ [l] ++ left := by simp
    rw [split] at new ⊢
    have step : ∃ after keys', migrateRow (rows,keys) l.row = .ok (after,keys') ∧
        Stands after legacies (Legacy.place (done ++ [l])) ∧ ∀ name, name ∈ keys' ↔ ∃ m ∈ done ++ [l], m.name = name := by
      by_cases used : l.name ∈ keys
      · obtain ⟨after,ran,stands⟩ := migrateRow_late stands valid here fresh names used
        refine ⟨after,keys,ran,stands,fun name => (names name).trans ⟨?_,?_⟩⟩
        · rintro ⟨m,member,same⟩
          exact ⟨m,List.mem_append_left _ member,same⟩
        · rintro ⟨m,member,same⟩
          rcases List.mem_append.mp member with before | last
          · exact ⟨m,before,same⟩
          · cases List.mem_singleton.mp last
            exact (names name).mp (same ▸ used)
      · obtain ⟨after,ran,stands⟩ := migrateRow_first stands valid here fresh names used
        refine ⟨after,l.name :: keys,ran,stands,fun name => ?_⟩
        rw [List.mem_cons,names]
        constructor
        · rintro (rfl | ⟨m,member,same⟩)
          · exact ⟨l,by simp,rfl⟩
          · exact ⟨m,List.mem_append_left _ member,same⟩
        · rintro ⟨m,member,same⟩
          rcases List.mem_append.mp member with before | last
          · exact .inr ⟨m,before,same⟩
          · cases List.mem_singleton.mp last
            exact .inl same.symm
    obtain ⟨after,keys',ran,stands,names⟩ := step
    obtain ⟨last,keys'',rest,stands⟩ := ih stands others new names
    exact ⟨last,keys'',by rw [List.map_cons,List.foldlM_cons,ran,ok_bind,rest],stands⟩
end

/-! ### The file after the upgrade -/

section
variable {file : File} {order : List Legacy}

/-- The file that the upgrade leaves. -/
structure Upgraded (file : File) (legacies order : List Legacy) (after : File) : Prop where
  version : after.version = 1
  workspace : after.workspace = file.workspace
  cell : after.cell = file.cell
  closed : after.closed = file.closed
  payloads : after.payloads = file.payloads
  rows : Stands after.transfers legacies (Legacy.after order)

theorem upgrade_ok (written : Written file legacies) (scanned : order.Perm legacies) :
    ∃ after, upgrade (order.map Legacy.row) file = .ok after ∧ Upgraded file legacies order after := by
  have stands : Stands file.transfers legacies Legacy.row := ⟨written.rows,fun _ => rfl,fun _ => rfl,fun _ => rfl⟩
  obtain ⟨parked,park_,stands⟩ := park_ok stands written.valid
  have distinct : legacies.Nodup := List.Nodup.of_map _ written.keys
  have begun : Stands parked legacies (Legacy.place []) :=
    stands.congr (fun l _ => by rw [Legacy.place,if_neg List.not_mem_nil]) (place_keys [])
  have none_ : ∀ name, name ∈ ([] : List String) ↔ ∃ m ∈ ([] : List Legacy), m.name = name := by simp
  obtain ⟨rows,keys,ran,stands⟩ := migrateRows_ok begun written.valid (fun l member => scanned.mem_iff.mp member)
    (by simpa using scanned.nodup_iff.mpr distinct) none_
  refine ⟨{ file with transfers := rows, version := 1 },?_,rfl,rfl,rfl,rfl,rfl,?_⟩
  · have old : ¬ 1 ≤ file.version := Int.not_le.mpr written.version
    rw [upgrade,if_neg old,park_,ok_bind,ran,ok_bind]
    rfl
  · refine stands.congr (fun l member => ?_) fun l => ⟨rfl,rfl,rfl⟩
    rw [List.nil_append,Legacy.place,if_pos (scanned.mem_iff.mpr member)]

theorem Upgraded.again {after : File} (upgraded : Upgraded file legacies order after) (scan : List Row) :
    upgrade scan after = .ok after := by
  rw [upgrade,if_pos (by rw [upgraded.version])]

theorem Upgraded.find {after : File} (upgraded : Upgraded file legacies order after) (scanned : order.Perm legacies)
    (valid : ∀ l ∈ legacies, l.Valid workspace cell) {l : Legacy} (first : l.First order) :
    after.transfers.rows.find? (fun row => row.requestKey = l.name) = some (l.after order) := by
  have key : ∀ m ∈ legacies, (m.after order).requestKey = l.name ↔ m.First order ∧ m.name = l.name := fun m member => by
    have placed : (m.place order).requestKey = l.name ↔ m ∈ order ∧ m.First order ∧ m.name = l.name :=
      place_key (valid l (scanned.mem_iff.mp first.mem))
    rw [Legacy.place,if_pos (scanned.mem_iff.mpr member)] at placed
    exact placed.trans ⟨fun all => all.2,fun both => ⟨both.1.mem,both⟩⟩
  have member := scanned.mem_iff.mp first.mem
  rw [upgraded.rows.rows]
  cases found : (legacies.map (Legacy.after order)).find? fun row => row.requestKey = l.name with
  | none =>
    have missing := List.find?_eq_none.mp found _ (List.mem_map_of_mem member)
    exact absurd ((key l member).mpr ⟨first,rfl⟩) (by simpa using missing)
  | some row =>
    obtain ⟨m,among,rfl⟩ := List.mem_map.mp (List.mem_of_find?_eq_some found)
    obtain ⟨one,same⟩ := (key m among).mp (by simpa using List.find?_some found)
    rw [one.unique first same]

theorem after_keys (valid : ∀ l ∈ legacies, l.Valid workspace cell) (ids : ∀ l ∈ legacies, ∀ m ∈ legacies, l.id = m.id → l = m)
    {l m : Legacy} (one : l ∈ legacies) (other : m ∈ legacies) (same : (l.after order).requestKey = (m.after order).requestKey) :
    l = m := by
  unfold Legacy.after at same
  dsimp only at same
  split_ifs at same with first again again
  · exact first.unique again same
  · exact absurd same (Legacy.name_apart (valid l one) _ _).2
  · exact absurd same.symm (Legacy.name_apart (valid m other) _ _).2
  · exact ids l one m other (legacyKey_injective same)

/-! ### Preparing again -/

theorem own_belongs {grant : Grant} (belongs : grant.belongs workspace cell = true) : (own grant).belongs workspace cell = true := by
  have owner_ : ident "owner" = true := by decide
  simp only [Grant.belongs,own,Bool.and_eq_true,List.all_cons,List.all_nil,and_true] at belongs ⊢
  obtain ⟨here,workspace_,cell_,principal,wallet,_⟩ := belongs
  exact ⟨here,workspace_,cell_,principal,wallet,owner_⟩

theorem name_own (l : Legacy) : l.source.principal ++ "/" ++ "owner" ++ "/" ++ l.key = l.name := by
  have parts : "/owner/" = "/" ++ "owner" ++ "/" := by decide
  simp only [Legacy.name,parts,String.append_assoc]

theorem metadata_read (valid : l.Valid workspace cell) :
    (Json.ofText l.clean.metadata).bind Transfer.ofJson = some l.migrated := by
  have proper : ∀ value ∈ l.recipient.toJson.map migrateRecipient, value.Proper := by
    cases recipient : l.recipient with
    | absent => rintro _ ⟨⟩
    | null =>
      rintro _ ⟨⟩
      trivial
    | fixed principal leased authority expires =>
      rw [migrateRecipient_fixed]
      rintro _ ⟨⟩
      exact object_proper (by simp) (by simp [str_proper])
  have read : defaulted (optional RecipientAuthority.ofJson) none (l.recipient.toJson.map migrateRecipient) =
      some l.recipient.read := by
    cases l.recipient with
    | absent => rfl
    | null => rfl
    | fixed principal leased authority expires =>
      rw [migrateRecipient_fixed,defaulted_some,Json.optional,RecipientAuthority.ofJson_toJson]
      · rfl
      · exact fun impossible => object_full _ impossible
  show (Json.ofText (Json.text _)).bind _ = _
  rw [ofText_text (l.record.toJsonWith_proper proper),Option.bind_some,Transfer.ofJson_toJsonWith valid.record read]
  rfl

/-- A record whose numbers fit their types is read back from its text as it was written. -/
theorem record_restored {t : Transfer} (typed : t.Typed) : (Json.ofText t.toJson.text).bind Transfer.ofJson = some t := by
  have proper : ∀ value ∈ t.recipient.map RecipientAuthority.toJson, value.Proper := by
    intro value member
    obtain ⟨recipient,_,rfl⟩ := Option.map_eq_some_iff.mp member
    exact object_proper (by simp) (by simp [str_proper])
  have read : defaulted (optional RecipientAuthority.ofJson) none (t.recipient.map RecipientAuthority.toJson) =
      some t.recipient := by
    cases t.recipient with
    | none => rfl
    | some recipient =>
      rw [Option.map_some,defaulted_some,Json.optional,RecipientAuthority.ofJson_toJson]
      · rfl
      · exact fun impossible => object_full _ impossible
  rw [Transfer.toJson,ofText_text (t.toJsonWith_proper proper),Option.bind_some,Transfer.ofJson_toJsonWith typed read]

theorem requestText_plain (source destination : Grant) (maximumBytes : Nat) :
    "legacy-ambiguous" ≠ requestText source destination maximumBytes := by
  intro same
  have read := requestText_read source destination maximumBytes
  rw [← same,show Json.ofText "legacy-ambiguous" = none by decide +kernel] at read
  cases read

/-- The requests that `prepare` takes up. -/
def Accepted (file : File) (limits : Limits) (source destination : Grant) (key : String) (maximumBytes : Nat) : Prop :=
  source.belongs file.workspace file.cell = true ∧ destination.belongs file.workspace file.cell = true ∧ ident key = true ∧
    maximumBytes ≠ 0 ∧ maximumBytes ≤ limits.payloadBytes ∧ source.wallet ≠ destination.wallet

section
variable [Sha256] {limits : Limits} {source destination : Grant} {key : String} {maximumBytes : Nat} {random : List UInt8}

theorem prepare_accepted (accepted : Accepted file limits source destination key maximumBytes) :
    prepare limits source destination key maximumBytes random file =
      prepareTx limits source destination (source.principal ++ "/" ++ source.authority ++ "/" ++ key) maximumBytes random file := by
  obtain ⟨mine,yours,named,some_,small,apart⟩ := accepted
  have valid : ¬ (ident key = false ∨ maximumBytes = 0 ∨ limits.payloadBytes < maximumBytes ∨ source.wallet = destination.wallet) := by
    simp [named,some_,apart]
    omega
  rw [prepare,ensure_of mine,ok_bind,ensure_of yours,ok_bind,ensure_of valid,ok_bind]

theorem prepare_refused (refused : ¬ Accepted file limits source destination key maximumBytes) :
    ∃ e, prepare limits source destination key maximumBytes random file = .error e := by
  cases ran : prepare limits source destination key maximumBytes random file with
  | error e => exact ⟨e,rfl⟩
  | ok out =>
    simp only [prepare,bind_ok,ensure_ok] at ran
    obtain ⟨_,mine,_,yours,_,valid,_⟩ := ran
    simp only [not_or,Bool.not_eq_false,not_lt] at valid
    exact absurd ⟨mine,yours,valid⟩ refused

/-- A replay of the only transfer of a key answers with it. -/
theorem Upgraded.replays {after : File} (upgraded : Upgraded file legacies order after) (scanned : order.Perm legacies)
    (written : Written file legacies) (opened : file.closed = false) {l : Legacy} (member : l ∈ legacies)
    (only : ∀ m ∈ legacies, m.name = l.name → m = l) (small : l.maximumBytes ≤ limits.payloadBytes) :
    prepare limits (own l.source) (own l.destination) l.key l.maximumBytes random after = .ok (l.migrated,after) := by
  have valid := written.valid l member
  have accepted : Accepted after limits (own l.source) (own l.destination) l.key l.maximumBytes := by
    refine ⟨?_,?_,valid.key,valid.positive,small,valid.wallets⟩
    · rw [upgraded.workspace,upgraded.cell]
      exact own_belongs valid.source
    · rw [upgraded.workspace,upgraded.cell]
      exact own_belongs valid.destination
  obtain ⟨m,first,same⟩ := Legacy.first_exists (scanned.mem_iff.mpr member)
  cases only m (scanned.mem_iff.mp first.mem) same
  have alone : ¬ l.Shared order := by
    rintro ⟨n,among,other,shared⟩
    exact other (only n (scanned.mem_iff.mp among) shared)
  have request : (l.after order).requestJson = requestText (own l.source) (own l.destination) l.maximumBytes := by
    rw [Legacy.after_request,if_neg fun both => alone both.2]
    rfl
  have key : (own l.source).principal ++ "/" ++ (own l.source).authority ++ "/" ++ l.key = l.name := name_own l
  have opened_ : after.closed = false := upgraded.closed.trans opened
  rw [prepare_accepted accepted,key,prepareTx,ensure_of opened_,ok_bind,upgraded.find scanned written.valid first]
  dsimp only
  rw [ensure_of request,ok_bind,show (l.after order).metadata = l.clean.metadata from rfl,metadata_read valid]
  rfl

/-- A key of two transfers is refused. -/
theorem Upgraded.refuses {after : File} (upgraded : Upgraded file legacies order after) (scanned : order.Perm legacies)
    (written : Written file legacies) {l m : Legacy} (one : l ∈ legacies) (other : m ∈ legacies) (apart : l ≠ m)
    (shared : m.name = l.name) (principal : source.principal = l.source.principal) (authority : source.authority = "owner") :
    (∃ e, prepare limits source destination l.key maximumBytes random after = .error e) ∧
      (Accepted after limits source destination l.key maximumBytes → file.closed = false →
        prepare limits source destination l.key maximumBytes random after = .error .conflict) := by
  obtain ⟨f,first,same⟩ := Legacy.first_exists (scanned.mem_iff.mpr one)
  have twice : f.Shared order := by
    by_cases here : l = f
    · exact ⟨m,scanned.mem_iff.mpr other,fun there => apart (here.trans there.symm),shared.trans same.symm⟩
    · exact ⟨l,scanned.mem_iff.mpr one,here,same.symm⟩
  have spoilt : (f.after order).requestJson = "legacy-ambiguous" := by rw [Legacy.after_request,if_pos ⟨first,twice⟩]
  have key : source.principal ++ "/" ++ source.authority ++ "/" ++ l.key = f.name := by
    rw [principal,authority,name_own,same]
  have conflict : (f.after order).requestJson ≠ requestText source destination maximumBytes := by
    rw [spoilt]
    exact requestText_plain _ _ _
  have refused : ∀ accepted : Accepted after limits source destination l.key maximumBytes,
      prepare limits source destination l.key maximumBytes random after =
        if file.closed = false then .error .conflict else .error .phase := fun accepted => by
    rw [prepare_accepted accepted,key,prepareTx,upgraded.closed,upgraded.find scanned written.valid first]
    split_ifs with opened
    · rw [ensure_of opened,ok_bind]
      dsimp only
      rw [ensure_error conflict]
      rfl
    · rw [ensure_error opened]
      rfl
  refine ⟨?_,fun accepted opened => by rw [refused accepted,if_pos opened]⟩
  by_cases accepted : Accepted after limits source destination l.key maximumBytes
  · rw [refused accepted]
    split_ifs <;> exact ⟨_,rfl⟩
  · exact prepare_refused accepted
end

end

/-- The upgrade succeeds on every file of the old format, in whatever order its rows
    are read. It keeps handles, capacities and payloads, leaves keys unique and does
    nothing when it runs again. In a vault that is not closed, a replay by the owner
    of the only transfer of a key answers with it, and every request with a key of two
    transfers is a conflict. -/
theorem upgrade_keeps [Sha256] {file : File} {legacies order : List Legacy} (written : Written file legacies)
    (scanned : order.Perm legacies) : ∃ after, upgrade (order.map Legacy.row) file = .ok after ∧
    (after.transfers.rows.map fun row => (row.id,row.handle,row.capacity)) =
      (file.transfers.rows.map fun row => (row.id,row.handle,row.capacity)) ∧
    after.payloads = file.payloads ∧ (after.transfers.rows.map Row.requestKey).Nodup ∧
    (∀ scan, upgrade scan after = .ok after) ∧
    ∀ limits random,
      (file.closed = false → ∀ l ∈ legacies,
        (∀ m ∈ legacies, m.source.principal = l.source.principal → m.key = l.key → m = l) → l.maximumBytes ≤ limits.payloadBytes →
          prepare limits (own l.source) (own l.destination) l.key l.maximumBytes random after = .ok (l.migrated,after)) ∧
      ∀ l ∈ legacies, ∀ m ∈ legacies, l ≠ m → m.source.principal = l.source.principal → m.key = l.key →
        ∀ source destination maximumBytes, source.principal = l.source.principal → source.authority = "owner" →
          (∃ e, prepare limits source destination l.key maximumBytes random after = .error e) ∧
            (Accepted after limits source destination l.key maximumBytes → file.closed = false →
              prepare limits source destination l.key maximumBytes random after = .error .conflict) := by
  obtain ⟨after,ran,upgraded⟩ := upgrade_ok written scanned
  have rows := upgraded.rows
  have ids : ∀ l ∈ legacies, ∀ m ∈ legacies, l.id = m.id → l = m := fun l one m other same => rows.same one other same
  refine ⟨after,ran,?_,upgraded.payloads,?_,upgraded.again,fun limits random => ⟨?_,?_⟩⟩
  · rw [rows.rows,written.rows,List.map_map,List.map_map]
    rfl
  · rw [rows.rows,List.map_map]
    exact List.Nodup.map_on (fun l one m other same => after_keys written.valid ids one other same)
      (List.Nodup.of_map _ written.keys)
  · intro opened l member only small
    refine upgraded.replays scanned written opened member (fun m among same => ?_) small
    obtain ⟨principal,key⟩ := (Legacy.name_eq (written.valid m among) (written.valid l member)).mp same
    exact only m among principal key
  · intro l one m other apart principal key source destination maximumBytes mine owner_
    have shared := (Legacy.name_eq (written.valid m other) (written.valid l one)).mpr ⟨principal,key⟩
    exact upgraded.refuses scanned written one other apart shared mine owner_
end

/-! ### A file of one transfer -/

def sampleGrant (wallet : String) : Grant := ⟨"workspace","cell","alice",wallet,"session-1"⟩

def sampleRecord : Transfer where
  recipient := none
  revision := 0
  id := "payload-1"
  workspace := "workspace"
  cell := "cell"
  sourceWallet := "one"
  destinationWallet := "two"
  maximumBytes := 32
  expiresAtUnix := 3600
  capture := .reserved
  bytes := none
  sha256 := none
  sourceManifest := none
  delivered := false
  source := .default
  receiver := .default
  observations := []

theorem sampleRecord_typed : sampleRecord.Typed :=
  ⟨by decide,by decide,by decide,by simp [sampleRecord],by simp [sampleRecord],
    by simp [sampleRecord,NativeStage.Typed,NativeStage.default],by simp [sampleRecord,NativeStage.Typed,NativeStage.default]⟩

theorem record_restored_sampleRecord :
    (Json.ofText sampleRecord.toJson.text).bind Transfer.ofJson = some sampleRecord := record_restored sampleRecord_typed

def sampleLegacy : Legacy where
  id := 1
  handle := "payload-1"
  capacity := 64
  source := sampleGrant "one"
  destination := sampleGrant "two"
  receiver := sampleGrant "two"
  key := "original"
  maximumBytes := 32
  recipient := .absent
  record := sampleRecord

def sampleFile (closed : Bool) : File where
  version := 0
  workspace := "workspace"
  cell := "cell"
  closed := closed
  transfers := ⟨[sampleLegacy.row],by decide⟩
  payloads := .empty
  clock := none

theorem sampleFile_written (closed : Bool) : Written (sampleFile closed) [sampleLegacy] where
  version := by show (0 : Int) < 1; decide
  rows := rfl
  keys := by decide
  valid := by
    intro l member
    cases List.mem_singleton.mp member
    have source : sampleLegacy.source.belongs "workspace" "cell" = true := by decide +kernel
    have destination : sampleLegacy.destination.belongs "workspace" "cell" = true := by decide +kernel
    exact ⟨source,destination,by decide +kernel,by decide,by decide,sampleRecord_typed⟩

section
/-- A digest for these files: nothing is digested when a transfer is replayed. -/
abbrev sampleSha256 : Sha256 := ⟨fun bytes => toString bytes.length⟩

attribute [local instance] sampleSha256

theorem upgrade_keeps_original : ∃ after, upgrade [sampleLegacy.row] (sampleFile false) = .ok after ∧
    prepare .default (own (sampleGrant "one")) (own (sampleGrant "two")) "original" 32 [] after = .ok (sampleRecord,after) := by
  obtain ⟨after,ran,_,_,_,_,replays⟩ := upgrade_keeps (sampleFile_written false) (List.Perm.refl _)
  refine ⟨after,ran,(replays .default []).1 rfl sampleLegacy List.mem_cons_self ?_ (by decide)⟩
  intro m member _ _
  exact List.mem_singleton.mp member

/-- A vault that is closed takes up no request: the owner has no replay. -/
theorem upgrade_closed : ∃ after, upgrade [sampleLegacy.row] (sampleFile true) = .ok after ∧
    prepare .default (own (sampleGrant "one")) (own (sampleGrant "two")) "original" 32 [] after = .error .phase := by
  obtain ⟨after,ran,upgraded⟩ := upgrade_ok (sampleFile_written true) (List.Perm.refl _)
  have accepted : Accepted after .default (own (sampleGrant "one")) (own (sampleGrant "two")) "original" 32 := by
    rw [Accepted,upgraded.workspace,upgraded.cell]
    decide +kernel
  refine ⟨after,ran,?_⟩
  rw [prepare_accepted accepted,prepareTx,upgraded.closed,ensure_error (by decide)]
  rfl
end

end Proofstorm.Custody.Migration
