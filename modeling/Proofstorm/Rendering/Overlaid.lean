import Proofstorm.Rendering.Native

/-!
What the native overrides of a mint do to what is rendered for it. A document is
known by what stands at each path of keys; the merge puts the overrides where
nothing stands, opens no table but theirs, and leaves all else as it was.
-/
namespace Proofstorm.Rendering
open Proofstorm.Core Validation

/-! ### What stands at a path -/

inductive Node (δ : Type)
  | leaf (data : δ)
  | table
  deriving DecidableEq

/-- What stands at each path of a document. -/
abbrev Outline (δ : Type) := List String → Option (Node δ)

def fieldAt (fields : Fields) (key : String) : Option Json := fields.toList.lookup key

/-- Objects are tables, all else are leaves. -/
def outlineOf (fields : Fields) : Outline Json
  | [] => some .table
  | key :: path =>
    match fieldAt fields key with
    | none => none
    | some (.obj inner) => outlineOf inner path
    | some value => if path = [] then some (.leaf value) else none

theorem fieldAt_cons (key : String) (value : Json) (rest : Fields) (other : String) :
    fieldAt (.cons key value rest) other = if other = key then some value else fieldAt rest other := by
  rw [fieldAt,Fields.toList,List.lookup_cons]
  by_cases same : other = key
  · simp [same]
  · simp [same,beq_false_of_ne same,fieldAt]

variable {fields : Fields} {key : String} {value : Json}

theorem fieldAt_absent (absent : fields.containsKey key = false) :
    fieldAt fields key = none := by
  rw [fieldAt,List.lookup_eq_none_iff]
  intro field member
  rw [Fields.containsKey,List.any_eq_false] at absent
  have other : field.1 ≠ key := by simpa using absent field member
  exact bne_iff_ne.mpr other.symm

theorem outlineOf_none (there : fieldAt fields key = none) (path : List String) :
    outlineOf fields (key :: path) = none := by
  rw [outlineOf,there]

theorem outlineOf_obj {inner : Fields} (there : fieldAt fields key = some (.obj inner))
    (path : List String) : outlineOf fields (key :: path) = outlineOf inner path := by
  rw [outlineOf,there]

theorem outlineOf_leaf (there : fieldAt fields key = some value)
    (leaf : ∀ inner, value ≠ .obj inner) (path : List String) :
    outlineOf fields (key :: path) = if path = [] then some (.leaf value) else none := by
  rw [outlineOf,there]
  cases value with
  | obj inner => exact absurd rfl (leaf inner)
  | null => rfl
  | bool value => rfl
  | num text => rfl
  | str text => rfl
  | arr items => rfl

/-- What stands below one value. -/
def outlineAt (value : Json) (path : List String) : Option (Node Json) :=
  match value with
  | .obj inner => outlineOf inner path
  | value => if path = [] then some (.leaf value) else none

theorem outlineOf_cons (key : String) (value : Json) (rest : Fields) (other : String) (path : List String) :
    outlineOf (.cons key value rest) (other :: path) =
      if other = key then outlineAt value path else outlineOf rest (other :: path) := by
  rw [outlineOf,outlineOf,fieldAt_cons]
  by_cases here : other = key
  · rw [if_pos here,if_pos here]
    cases value <;> rfl
  · rw [if_neg here,if_neg here]

theorem fieldAt_proper (proper : fields.Proper)
    (there : fieldAt fields key = some value) : value.Proper := by
  induction fields using Fields.toList.induct with
  | case1 => cases there
  | case2 first other rest ih =>
    obtain ⟨-,head,tail⟩ := proper
    rw [fieldAt_cons] at there
    split at there
    · cases there
      exact head
    · exact ih tail there

/-! ### Leaves -/

/-- A leaf of a document: what is no table, and a table with nothing in it. -/
def IsLeaf {δ : Type} (outline : Outline δ) (path : List String) : Prop :=
  (∃ data, outline path = some (.leaf data)) ∨
    outline path = some .table ∧ ∀ key, outline (path ++ [key]) = none

mutual
/-- The paths that `leaf_paths` writes with dots. -/
def leavesOf (path : List String) : Json → List (List String)
  | .obj .nil => if path.isEmpty then [] else [path]
  | .obj fields => leavesIn path fields
  | _ => [path]
def leavesIn (path : List String) : Fields → List (List String)
  | .nil => []
  | .cons key value tail => leavesOf (path ++ [key]) value ++ leavesIn path tail
end

mutual
theorem leafPaths_eq (path : List String) :
    ∀ value : Json, leafPaths path value = (leavesOf path value).map (".".intercalate ·)
  | .obj .nil => by
    rw [leafPaths,leavesOf]
    split <;> rfl
  | .obj (.cons key value tail) => by
    rw [leafPaths,leavesOf,leafFields_eq path (.cons key value tail)]
    · intro same; cases same
    · intro same; cases same
  | .null => rfl
  | .bool _ => rfl
  | .num _ => rfl
  | .str _ => rfl
  | .arr _ => rfl
theorem leafFields_eq (path : List String) :
    ∀ fields : Fields, leafFields path fields = (leavesIn path fields).map (".".intercalate ·)
  | .nil => rfl
  | .cons key value tail => by
    rw [leafFields,leavesIn,List.map_append,leafPaths_eq (path ++ [key]) value,leafFields_eq path tail]
end

theorem isLeaf_cons {rest : Fields} {other : String} {path : List String} :
    IsLeaf (outlineOf (.cons key value rest)) (other :: path) ↔
      if other = key then IsLeaf (outlineAt value) path else IsLeaf (outlineOf rest) (other :: path) := by
  unfold IsLeaf
  simp only [List.cons_append,outlineOf_cons]
  split <;> rfl

theorem outlineAt_nil (value : Json) : outlineAt value [] ≠ none := by
  cases value <;> exact Option.some_ne_none _

/-- A value that holds no others is a leaf, and the only one. -/
theorem mem_single {path leaf : List String}
    (single : ∀ rest, IsLeaf (outlineAt value) rest ↔ rest = []) :
    leaf ∈ [path] ↔ ∃ rest, leaf = path ++ rest ∧ IsLeaf (outlineAt value) rest := by
  simp only [List.mem_singleton,single,exists_eq_right,List.append_nil]

theorem isLeaf_single {outline : Outline Json} (value : Json)
    (same : ∀ rest, outline rest = if rest = [] then some (.leaf value) else none) (rest : List String) :
    IsLeaf outline rest ↔ rest = [] := by
  unfold IsLeaf
  rw [same]
  by_cases top : rest = [] <;> simp [top]

theorem isLeaf_empty (rest : List String) : IsLeaf (outlineAt (.obj .nil)) rest ↔ rest = [] := by
  cases rest with
  | nil => exact ⟨fun _ => rfl,fun _ => .inr ⟨rfl,fun _ => rfl⟩⟩
  | cons key rest => simp [IsLeaf,outlineAt,outlineOf,fieldAt,Fields.toList]

theorem not_isLeaf_absent {rest : List String}
    (absent : fields.containsKey key = false) : ¬ IsLeaf (outlineOf fields) (key :: rest) := by
  rintro (⟨data,leaf⟩ | ⟨table,-⟩)
  · rw [outlineOf_none (fieldAt_absent absent)] at leaf
    cases leaf
  · rw [outlineOf_none (fieldAt_absent absent)] at table
    cases table

mutual
theorem mem_leavesOf (path : List String) (below : path ≠ []) (leaf : List String) :
    ∀ value : Json, value.Proper →
      (leaf ∈ leavesOf path value ↔ ∃ rest, leaf = path ++ rest ∧ IsLeaf (outlineAt value) rest)
  | .obj .nil,_ => by
    rw [leavesOf,if_neg (by simpa using below)]
    exact mem_single isLeaf_empty
  | .obj (.cons key value tail),proper => by
    have inside := mem_leavesIn path leaf (.cons key value tail) proper
    rw [leavesOf,inside]
    · constructor
      · rintro ⟨other,rest,same,leaf⟩
        exact ⟨other :: rest,same,leaf⟩
      · rintro ⟨rest,same,leaf⟩
        cases rest with
        | nil =>
          obtain ⟨_,wrong⟩ | ⟨-,empty⟩ := leaf
          · cases wrong
          · have first := empty key
            rw [List.nil_append,outlineAt,outlineOf_cons,if_pos rfl] at first
            exact absurd first (outlineAt_nil value)
        | cons other rest => exact ⟨other,rest,same,leaf⟩
    · intro same; cases same
  | .null,_ => mem_single (isLeaf_single .null fun _ => rfl)
  | .bool value,_ => mem_single (isLeaf_single (.bool value) fun _ => rfl)
  | .num text,_ => mem_single (isLeaf_single (.num text) fun _ => rfl)
  | .str text,_ => mem_single (isLeaf_single (.str text) fun _ => rfl)
  | .arr items,_ => mem_single (isLeaf_single (.arr items) fun _ => rfl)
theorem mem_leavesIn (path : List String) (leaf : List String) :
    ∀ fields : Fields, fields.Proper →
      (leaf ∈ leavesIn path fields ↔ ∃ key rest, leaf = path ++ key :: rest ∧ IsLeaf (outlineOf fields) (key :: rest))
  | .nil,_ => by
    simp [leavesIn,IsLeaf,outlineOf,fieldAt,Fields.toList]
  | .cons key value tail,⟨absent,proper,others⟩ => by
    have first := mem_leavesOf (path ++ [key]) (by simp) leaf value proper
    have later := mem_leavesIn path leaf tail others
    rw [leavesIn,List.mem_append,first,later]
    constructor
    · rintro (⟨rest,same,leaf⟩ | ⟨other,rest,same,leaf⟩)
      · exact ⟨key,rest,by simpa using same,isLeaf_cons.mpr (by simpa using leaf)⟩
      · have apart : other ≠ key := by
          rintro rfl
          exact not_isLeaf_absent absent leaf
        exact ⟨other,rest,same,isLeaf_cons.mpr (by simpa [apart] using leaf)⟩
    · rintro ⟨other,rest,same,leaf⟩
      rw [isLeaf_cons] at leaf
      split at leaf
      · rename_i here
        subst here
        exact .inl ⟨rest,by simpa using same,leaf⟩
      · exact .inr ⟨other,rest,same,leaf⟩
end

mutual
theorem leavesOf_nodup (path : List String) : ∀ value : Json, value.Proper → (leavesOf path value).Nodup
  | .obj .nil,_ => by
    rw [leavesOf]
    split <;> simp
  | .obj (.cons key value tail),proper => by
    have inside := leavesIn_nodup path (.cons key value tail) proper
    rw [leavesOf]
    · exact inside
    · intro same; cases same
  | .null,_ => List.nodup_singleton path
  | .bool _,_ => List.nodup_singleton path
  | .num _,_ => List.nodup_singleton path
  | .str _,_ => List.nodup_singleton path
  | .arr _,_ => List.nodup_singleton path
theorem leavesIn_nodup (path : List String) : ∀ fields : Fields, fields.Proper → (leavesIn path fields).Nodup
  | .nil,_ => List.nodup_nil
  | .cons key value tail,⟨absent,proper,others⟩ => by
    refine List.nodup_append.mpr ⟨leavesOf_nodup _ value proper,leavesIn_nodup path tail others,?_⟩
    rintro leaf first _ later rfl
    obtain ⟨rest,same,-⟩ := (mem_leavesOf (path ++ [key]) (by simp) leaf value proper).mp first
    obtain ⟨other,below,same',leaf⟩ := (mem_leavesIn path leaf tail others).mp later
    rw [same,List.append_assoc,List.append_cancel_left_eq] at same'
    cases same'
    exact not_isLeaf_absent absent leaf
end

/-! ### Overrides on top of what was rendered -/

section
variable {δ : Type} (equals : δ → Json → Prop)

/-- What stands at one path of what was rendered, of its overrides and of the result. -/
inductive Joined : Option (Node δ) → Option (Node Json) → Option (Node δ) → Prop
  | kept (rendered : Option (Node δ)) : Joined rendered none rendered
  | opened : Joined none (some .table) (some .table)
  | entered : Joined (some .table) (some .table) (some .table)
  | added {data : δ} {value : Json} (same : equals data value) : Joined none (some (.leaf value)) (some (.leaf data))

/-- The result holds all that was rendered, and each override where nothing was
    rendered. It holds nothing else. -/
structure Overlaid (rendered : Outline δ) (override : Outline Json) (result : Outline δ) : Prop where
  kept : ∀ path node, rendered path = some node → result path = some node
  added : ∀ path value, override path = some (.leaf value) →
    rendered path = none ∧ ∃ data, result path = some (.leaf data) ∧ equals data value
  opened : ∀ path, override path = some .table → result path = some .table
  only : ∀ path, rendered path = none → override path = none → result path = none

theorem Overlaid.of_joined {rendered result : Outline δ} {override : Outline Json}
    (joined : ∀ path, Joined equals (rendered path) (override path) (result path)) :
    Overlaid equals rendered override result := by
  constructor
  · intro path node there
    have here := joined path
    rw [there] at here
    generalize override path = asked at here
    generalize result path = made at here ⊢
    cases here <;> rfl
  · intro path value there
    have here := joined path
    rw [there] at here
    generalize rendered path = old at here ⊢
    generalize result path = made at here ⊢
    cases here with
    | added same => exact ⟨rfl,_,rfl,same⟩
  · intro path there
    have here := joined path
    rw [there] at here
    generalize rendered path = old at here
    generalize result path = made at here ⊢
    cases here <;> rfl
  · intro path free unasked
    have here := joined path
    rw [free,unasked] at here
    generalize result path = made at here ⊢
    cases here
    rfl

/-- Nothing stands below what is no table. -/
def Closed {δ : Type} (outline : Outline δ) : Prop :=
  ∀ path key, outline path ≠ some .table → outline (path ++ [key]) = none

/-- What is recorded of the overrides: each leaf that they added, and each empty
    table among them for which a table had been rendered. -/
def Recorded (rendered : Outline δ) (override : Outline Json) (result : Outline δ) (keys : List String) : Prop :=
  ∃ leaves : List (List String), leaves.Nodup ∧ keys = (leaves.map (".".intercalate ·)).insertionSort (· ≤ ·) ∧
    ∀ path, path ∈ leaves ↔
      (rendered path = none ∧ IsLeaf result path) ∨
        (path ≠ [] ∧ rendered path = some .table ∧ override path = some .table ∧
          ∀ key, override (path ++ [key]) = none)

/-- A leaf of the overrides is added, or it is an empty table where there is a table. -/
theorem isLeaf_override {rendered result : Outline δ} {override : Outline Json} (closed : Closed rendered)
    (joined : ∀ path, Joined equals (rendered path) (override path) (result path)) (path : List String) :
    IsLeaf override path ↔
      (rendered path = none ∧ IsLeaf result path) ∨
        (rendered path = some .table ∧ override path = some .table ∧ ∀ key, override (path ++ [key]) = none) := by
  have here := joined path
  have children (free : rendered path = none) (key : String) :
      override (path ++ [key]) = none ↔ result (path ++ [key]) = none := by
    have none_ : rendered (path ++ [key]) = none := closed path key (by rw [free]; exact (Option.some_ne_none _).symm)
    have under := joined (path ++ [key])
    rw [none_] at under
    generalize override (path ++ [key]) = asked at under ⊢
    generalize result (path ++ [key]) = made at under ⊢
    cases under <;> simp
  unfold IsLeaf
  generalize override path = asked at here ⊢
  generalize result path = made at here ⊢
  generalize free : rendered path = old at here ⊢
  cases here with
  | kept => cases made <;> simp
  | opened => simp [children free]
  | entered => simp
  | added same => simp
end

section
variable [TomlEdit]

def TomlTable.outline (table : DocumentTable) : Outline TomlEdit.Data
  | [] => some .table
  | key :: path =>
    match table.get key with
    | none => none
    | some (.table _ entries) => outline entries path
    | some (.value value) => if path = [] then some (.leaf (TomlEdit.data value)) else none
    | some (.arrayOfTables tables) => if path = [] then some (.leaf (TomlEdit.tables tables)) else none

/-- Data of a document that is equal to a JSON value. -/
def Says (data : TomlEdit.Data) (value : Json) : Prop := TomlEdit.json data = some value

/-- The data of a value that was written is the value. -/
def Serializes : Prop :=
  ∀ (value : Json) (item : TomlEdit.Value), TomlEdit.serialize value = .ok item → Says (TomlEdit.data item) value

/-! ### One key of a table -/

/-- What the merge makes of one key: what it does there depends on what is there
    and on the override for it alone. -/
inductive Entry : Option DocumentItem → Option Json → Option DocumentItem → Prop
  | kept (item : Option DocumentItem) : Entry item none item
  | entered {form : TomlEdit.Form} {existing merged : DocumentTable} {path : String} {inner : Fields}
      (called : mergeTomlTable existing path inner = .ok merged) :
      Entry (some (.table form existing)) (some (.obj inner)) (some (.table form merged))
  | opened {made : DocumentTable} {path : String} {inner : Fields} (called : mergeTomlTable .nil path inner = .ok made) :
      Entry none (some (.obj inner)) (some (.table TomlEdit.created made))
  | added {value : Json} {item : TomlEdit.Value} (leaf : ∀ inner, value ≠ .obj inner)
      (written : TomlEdit.serialize value = .ok item) : Entry none (some value) (some (.value item))

theorem mergeTomlEntry_entry {table merged : DocumentTable} {path : String}
    (called : mergeTomlEntry table path key value = .ok merged) :
    ∃ item, merged = table.insert key item ∧ Entry (table.get key) (some value) (some item) := by
  unfold mergeTomlEntry at called
  split at called
  · rename_i inner
    split at called
    · rename_i form existing there
      simp only [bind_ok,pure_ok] at called
      obtain ⟨entries,called,rfl⟩ := called
      exact ⟨_,rfl,there ▸ .entered called⟩
    · cases called
    · rename_i free
      simp only [bind_ok,pure_ok] at called
      obtain ⟨made,called,rfl⟩ := called
      exact ⟨_,rfl,free ▸ .opened called⟩
  · rename_i leaf
    split at called
    · cases called
    · rename_i free
      simp only [bind_ok,pure_ok,mapError_ok] at called
      obtain ⟨item,written,rfl⟩ := called
      exact ⟨_,rfl,free ▸ .added leaf written⟩

/-- No key of the overrides is overridden twice, so each finds its key as it was rendered. -/
theorem mergeTomlTable_entry {merged : DocumentTable} {path : String} :
    ∀ {overrides : Fields} {table : DocumentTable}, overrides.Proper →
      mergeTomlTable table path overrides = .ok merged →
        ∀ key, Entry (table.get key) (fieldAt overrides key) (merged.get key)
  | .nil,table,_,called => by
    cases called
    exact fun key => .kept _
  | .cons first value rest,table,⟨absent,_,proper⟩,called => by
    rw [mergeTomlTable,bind_ok] at called
    obtain ⟨between,one,others⟩ := called
    obtain ⟨item,rfl,entry⟩ := mergeTomlEntry_entry one
    intro key
    have later := mergeTomlTable_entry proper others key
    rw [TomlTable.get_insert] at later
    rw [fieldAt_cons]
    by_cases here : key = first
    · subst here
      rw [if_pos rfl,fieldAt_absent absent] at later
      generalize merged.get key = last at later ⊢
      cases later
      rw [if_pos rfl]
      exact entry
    · rw [if_neg here] at later ⊢
      exact later

/-! ### Every path -/

/-- The merge joins the outlines. -/
theorem mergeTomlTable_joined (serializes : Serializes) {overrides : Fields} {table merged : DocumentTable}
    {text : String} (proper : overrides.Proper) (called : mergeTomlTable table text overrides = .ok merged)
    (path : List String) : Joined Says (table.outline path) (outlineOf overrides path) (merged.outline path) := by
  induction path generalizing overrides table merged text with
  | nil => exact .entered
  | cons key path ih =>
    have entry := mergeTomlTable_entry proper called key
    rw [TomlTable.outline.eq_def,TomlTable.outline.eq_def merged]
    dsimp only
    generalize table.get key = old at entry ⊢
    generalize there : fieldAt overrides key = asked at entry
    generalize merged.get key = new at entry ⊢
    cases entry with
    | kept => exact outlineOf_none there path ▸ .kept _
    | entered called => exact outlineOf_obj there path ▸ ih (fieldAt_proper proper there) called
    | opened called =>
      have joined := ih (fieldAt_proper proper there) called
      rw [outlineOf_obj there]
      cases path with
      | nil => exact .opened
      | cons next path => exact joined
    | @added value item leaf written =>
      rw [outlineOf_leaf there leaf]
      dsimp only
      split
      · exact .added (serializes value item written)
      · exact .kept none

end

end Proofstorm.Rendering
