import Proofstorm.Core.Values
import Proofstorm.Entries
import Proofstorm.Rendering.Overlaid

/-!
Native overrides only add. For every document and environment that was rendered and
every override of it, rendering fails or gives back all that was rendered, each
override beside it, and nothing else; and what the lock records of the overrides is
what they added, up to empty tables where there was a table already.
-/
namespace Proofstorm.Rendering
open Proofstorm.Core Validation

/-! ### Documents that can be written -/

section
variable [TomlEdit]

theorem TomlTable.outline_closed (table : DocumentTable) : Closed table.outline := by
  intro path key
  induction path generalizing table with
  | nil => exact fun other => absurd rfl other
  | cons first path ih =>
    intro other
    rw [outline] at other
    rw [List.cons_append,outline]
    cases there : table.get first with
    | none => rfl
    | some item =>
      rw [there] at other
      cases item with
      | table form entries => exact ih entries other
      | value value => simp
      | arrayOfTables tables => simp

mutual
/-- A key stands once, and a table that only its entries show has some. -/
def TomlItem.Proper : DocumentItem → Prop
  | .table form entries => (TomlEdit.hidden form = true → entries ≠ .nil) ∧ entries.Proper
  | _ => True
def TomlTable.Proper : DocumentTable → Prop
  | .nil => True
  | .cons key item rest => rest.get key = none ∧ item.Proper ∧ rest.Proper
end

theorem TomlTable.nil_proper : (TomlTable.nil : DocumentTable).Proper := trivial

theorem TomlTable.insert_proper (key : String) {item : DocumentItem} (proper : item.Proper) :
    ∀ {table : DocumentTable}, table.Proper → (table.insert key item).Proper ∧ table.insert key item ≠ .nil
  | .nil,_ => ⟨⟨rfl,proper,trivial⟩,by simp [insert]⟩
  | .cons old here rest,⟨absent,kept,others⟩ => by
    have ih := insert_proper key proper others
    rw [insert]
    split
    · exact ⟨⟨absent,proper,others⟩,by simp⟩
    · rename_i other
      refine ⟨⟨?_,kept,ih.1⟩,by simp⟩
      rw [get_insert,if_neg other]
      exact absent

theorem TomlTable.get_proper {key : String} {item : DocumentItem} :
    ∀ {table : DocumentTable}, table.Proper → table.get key = some item → item.Proper
  | .nil,_,there => by cases there
  | .cons old here rest,⟨_,kept,others⟩,there => by
    rw [get_cons] at there
    split at there
    · cases there
      exact kept
    · exact get_proper others there

theorem mergeTomlLeaf_proper {table merged : DocumentTable} {path key : String} {value : Json}
    (leaf : ∀ inner, value ≠ .obj inner) (proper : table.Proper)
    (called : mergeTomlEntry table path key value = .ok merged) : merged.Proper ∧ merged ≠ .nil := by
  obtain ⟨item,rfl,entry⟩ := mergeTomlEntry_entry called
  have kept : item.Proper := by
    generalize table.get key = old at entry
    cases entry with
    | entered called => exact absurd rfl (leaf _)
    | opened called => exact absurd rfl (leaf _)
    | added _ written => trivial
  exact TomlTable.insert_proper key kept proper

mutual
/-- The merge leaves a document that can be written, and empties no table. -/
theorem mergeTomlTable_proper (shown : TomlEdit.hidden TomlEdit.created = false) {path : String} {merged : DocumentTable} :
    ∀ (overrides : Fields) {table : DocumentTable}, table.Proper → mergeTomlTable table path overrides = .ok merged →
      merged.Proper ∧ (table ≠ .nil → merged ≠ .nil)
  | .nil,table,proper,called => by
    cases called
    exact ⟨proper,id⟩
  | .cons key value rest,table,proper,called => by
    rw [mergeTomlTable,bind_ok] at called
    obtain ⟨between,one,others⟩ := called
    obtain ⟨kept,some_⟩ := mergeTomlEntry_proper shown value proper one
    obtain ⟨last,more⟩ := mergeTomlTable_proper shown rest kept others
    exact ⟨last,fun _ => more some_⟩
theorem mergeTomlEntry_proper (shown : TomlEdit.hidden TomlEdit.created = false) {path key : String}
    {merged : DocumentTable} :
    ∀ (value : Json) {table : DocumentTable}, table.Proper → mergeTomlEntry table path key value = .ok merged →
      merged.Proper ∧ merged ≠ .nil
  | .obj inner,table,proper,called => by
    unfold mergeTomlEntry at called
    split at called
    · rename_i form existing there
      simp only [bind_ok,pure_ok] at called
      obtain ⟨entries,called,rfl⟩ := called
      obtain ⟨some_,inside⟩ := TomlTable.get_proper proper there
      obtain ⟨kept,more⟩ := mergeTomlTable_proper shown inner inside called
      have shows : (TomlItem.table form entries : DocumentItem).Proper := ⟨fun hidden => more (some_ hidden),kept⟩
      exact TomlTable.insert_proper key shows proper
    · cases called
    · simp only [bind_ok,pure_ok] at called
      obtain ⟨made,called,rfl⟩ := called
      obtain ⟨kept,-⟩ := mergeTomlTable_proper shown inner TomlTable.nil_proper called
      have shows : (TomlItem.table TomlEdit.created made : DocumentItem).Proper := by
        refine ⟨fun hidden => ?_,kept⟩
        rw [shown] at hidden
        cases hidden
      exact TomlTable.insert_proper key shows proper
  | .null,table,proper,called => mergeTomlLeaf_proper (by simp) proper called
  | .bool _,table,proper,called => mergeTomlLeaf_proper (by simp) proper called
  | .num _,table,proper,called => mergeTomlLeaf_proper (by simp) proper called
  | .str _,table,proper,called => mergeTomlLeaf_proper (by simp) proper called
  | .arr _,table,proper,called => mergeTomlLeaf_proper (by simp) proper called
end

end

/-! ### Overrides as they were authored -/

/-- The overrides in the configuration of a component. -/
def authored (component : ComponentSpec) (name : String) : Fields :=
  match component.get name with
  | some (.obj fields) => fields
  | _ => .nil

theorem keys_nodup {fields : Fields} (proper : fields.Proper) : (fields.toList.map Prod.fst).Nodup := by
  cases fields with
  | nil => exact List.nodup_nil
  | cons key value rest =>
    obtain ⟨absent,_,proper⟩ := proper
    refine List.nodup_cons.mpr ⟨fun member => ?_,keys_nodup proper⟩
    obtain ⟨field,there,same⟩ := List.mem_map.mp member
    rw [Fields.containsKey,List.any_eq_false] at absent
    exact absent field there (by simp [same])

variable {fields : Fields} {ν : Type} {component : ComponentSpec} {env : List Json}
  {environment result : BTreeMap String String}

theorem fieldAt_eq (proper : fields.Proper) {key : String} {value : Json} :
    fieldAt fields key = some value ↔ (key,value) ∈ fields.toList :=
  ⟨Entries.mem_of_lookup,fun member => Entries.lookup_of_mem member (keys_nodup proper)⟩

theorem mem_toList {map : BTreeMap String ν} {key : String} {value : ν} :
    (key,value) ∈ map.toList ↔ map[key]? = some value :=
  Std.ExtTreeMap.mem_toList_iff_getElem?_eq_some

theorem optionalConfigObject_ok {name : String} {read : Json → Option ν}
    {map : BTreeMap String ν} (found : optionalConfigObject component name read = .ok map) :
    ∃ pairs, map = .collect pairs ∧
      List.Forall₂ (fun field pair => pair.1 = field.1 ∧ read field.2 = some pair.2)
        (authored component name).toList pairs := by
  unfold optionalConfigObject at found
  unfold authored
  split at found
  · rename_i absent
    cases found
    rw [absent]
    exact ⟨[],rfl,.nil⟩
  · rename_i fields there
    rw [there]
    split at found
    · rename_i pairs all
      cases found
      refine ⟨pairs,rfl,(mapM_eq_some.mp all).imp ?_⟩
      rintro ⟨key,json⟩ pair same
      obtain ⟨value,read,rfl⟩ := Option.map_eq_some_iff.mp same
      exact ⟨rfl,read⟩
    · cases found
  · cases found

/-- A field that is read is an object. -/
theorem object_of_read {name : String} {read : Json → Option ν}
    {map : BTreeMap String ν} (found : optionalConfigObject component name read = .ok map) :
    ∀ value, component.get name = some value → ∃ fields, value = .obj fields := by
  intro value there
  unfold optionalConfigObject at found
  rw [there] at found
  cases value with
  | obj fields => exact ⟨fields,rfl⟩
  | null => cases found
  | bool value => cases found
  | num text => cases found
  | str text => cases found
  | arr items => cases found

theorem same_keys {read : Json → Option ν} {fields : List (String × Json)} {pairs : List (String × ν)}
    (each : List.Forall₂ (fun field pair => pair.1 = field.1 ∧ read field.2 = some pair.2) fields pairs) :
    pairs.map Prod.fst = fields.map Prod.fst := by
  induction each with
  | nil => rfl
  | cons pair _ ih => rw [List.map_cons,List.map_cons,pair.1,ih]

/-- What is read of a configuration field, key by key. -/
theorem get_optionalConfigObject {name : String} {read : Json → Option ν}
    {map : BTreeMap String ν} (proper : (authored component name).Proper)
    (found : optionalConfigObject component name read = .ok map) (key : String) :
    map[key]? = (fieldAt (authored component name) key).bind read := by
  obtain ⟨pairs,rfl,each⟩ := optionalConfigObject_ok found
  have distinct : (pairs.map Prod.fst).Nodup := same_keys each ▸ keys_nodup proper
  refine Option.ext fun value => ?_
  rw [BTreeMap.get_collect distinct,Option.bind_eq_some_iff]
  constructor
  · intro member
    obtain ⟨⟨other,json⟩,there,same,read⟩ := exists_of_mem_right each member
    cases same
    exact ⟨json,(fieldAt_eq proper).mpr there,read⟩
  · rintro ⟨json,there,read⟩
    obtain ⟨⟨other,made⟩,member,same,read'⟩ := exists_of_mem_left each ((fieldAt_eq proper).mp there)
    rw [read] at read'
    cases same
    cases read'
    exact member

/-- No field of the configuration is lost. -/
theorem read_authored {name : String} {read : Json → Option ν}
    {map : BTreeMap String ν} (proper : (authored component name).Proper)
    (found : optionalConfigObject component name read = .ok map) {key : String} {json : Json}
    (there : fieldAt (authored component name) key = some json) : ∃ value, read json = some value := by
  obtain ⟨pairs,-,each⟩ := optionalConfigObject_ok found
  obtain ⟨pair,-,-,read⟩ := exists_of_mem_left each ((fieldAt_eq proper).mp there)
  exact ⟨pair.2,read⟩

/-! ### What is recorded -/

theorem overrideKeys_eq (implementation : Overrides)
    (known : overrides component.implementation = some implementation)
    (shape : ∀ value, component.get implementation.field = some value → ∃ fields, value = .obj fields) :
    overrideKeys component =
      ((leavesIn [] (authored component implementation.field)).map (".".intercalate ·)).insertionSort (· ≤ ·) := by
  rw [overrideKeys,known,Option.bind_some,authored]
  cases there : component.get implementation.field with
  | none => rfl
  | some value =>
    obtain ⟨fields,rfl⟩ := shape value there
    dsimp only
    rw [leafPaths_eq]
    cases fields with
    | nil => rfl
    | cons key value rest =>
      rw [leavesOf]
      intro same
      cases same

theorem recorded {δ : Type} {equals : δ → Json → Prop} {rendered result : Outline δ}
    (proper : fields.Proper) (closed : Closed rendered) (root : rendered [] = some .table)
    (joined : ∀ path, Joined equals (rendered path) (outlineOf fields path) (result path)) :
    Recorded rendered (outlineOf fields) result
      (((leavesIn [] fields).map (".".intercalate ·)).insertionSort (· ≤ ·)) := by
  refine ⟨leavesIn [] fields,leavesIn_nodup [] fields proper,rfl,fun path => ?_⟩
  rw [mem_leavesIn [] path fields proper]
  cases path with
  | nil => simp [root]
  | cons key path =>
    have leaf := isLeaf_override equals closed joined (key :: path)
    simp [leaf]

/-! ### The configuration of a CDK mint -/

theorem outlineOf_congr {other : Fields} (same : ∀ key, fieldAt fields key = fieldAt other key) :
    outlineOf fields = outlineOf other := by
  funext path
  cases path with
  | nil => rfl
  | cons key path => rw [outlineOf,outlineOf,same]

theorem toList_keys (map : BTreeMap String ν) : (map.toList.map Prod.fst).Nodup := by
  refine List.pairwise_map.mpr (map.distinct_keys_toList.imp fun apart same => apart ?_)
  exact Std.LawfulEqOrd.compare_eq_iff_eq.mpr same

/-- The map of overrides holds what was authored. -/
theorem nativeToml_fields {overrides : BTreeMap String Json}
    (proper : (authored component "native_toml").Proper) (found : nativeToml component = .ok overrides) :
    (Fields.ofList overrides.toList).Proper ∧
      outlineOf (.ofList overrides.toList) = outlineOf (authored component "native_toml") := by
  have get (key : String) : overrides[key]? = fieldAt (authored component "native_toml") key := by
    rw [get_optionalConfigObject proper found,Option.bind_fun_some]
  constructor
  · refine Json.object_proper (toList_keys overrides) fun pair member => ?_
    have there := mem_toList.mp (show (pair.1,pair.2) ∈ overrides.toList from member)
    exact fieldAt_proper proper ((get pair.1).symm.trans there)
  · refine outlineOf_congr fun key => ?_
    rw [← get,fieldAt,Fields.toList_ofList]
    refine Option.ext fun value => ?_
    rw [← mem_toList]
    exact ⟨Entries.mem_of_lookup,fun member => Entries.lookup_of_mem member (toList_keys overrides)⟩

/-- What the code relies on of the library: values that it writes are what they were,
    and a document that can be written is read back with all that stands in it. -/
structure Faithful [TomlEdit] : Prop where
  serializes : Serializes
  parsed : ∀ text form table, TomlEdit.parse text = .ok (form,table) → table.Proper
  printed : ∀ form (table : DocumentTable), table.Proper →
    ∃ form' table', TomlEdit.parse (TomlEdit.print form table) = .ok (form',table') ∧ table'.outline = table.outline
  shown : TomlEdit.hidden TomlEdit.created = false

theorem mergeNativeToml_joined [TomlEdit] (faithful : Faithful) {component : ComponentSpec} {rendered text : String}
    {overrides : BTreeMap String Json} {form : TomlEdit.Form} {table : DocumentTable}
    (proper : (authored component "native_toml").Proper) (found : nativeToml component = .ok overrides)
    (read : TomlEdit.parse rendered = .ok (form,table))
    (merged : mergeNativeToml component.id rendered overrides = .ok text) :
    ∃ form' result, TomlEdit.parse text = .ok (form',result) ∧
      ∀ path, Joined Says (table.outline path) (outlineOf (authored component "native_toml") path) (result.outline path) := by
  obtain ⟨kept,same⟩ := nativeToml_fields proper found
  rw [← same]
  unfold mergeNativeToml at merged
  dsimp only at merged
  split at merged
  · rename_i none_
    cases merged
    refine ⟨form,table,read,fun path => ?_⟩
    rw [none_]
    cases path with
    | nil => exact .entered
    | cons key path => exact .kept _
  · rw [read] at merged
    simp only [bind_ok,pure_ok,mapError_ok] at merged
    obtain ⟨_,found,document,called,rfl⟩ := merged
    cases found
    obtain ⟨written,-⟩ := mergeTomlTable_proper faithful.shown _ (faithful.parsed _ _ _ read) called
    obtain ⟨form',result,back,outline⟩ := faithful.printed form document written
    refine ⟨form',result,back,fun path => ?_⟩
    rw [outline]
    exact mergeTomlTable_joined faithful.serializes kept called path

/-! ### The environment of a Nutshell mint -/

/-- An environment as a table of texts. -/
def environmentOutline (environment : BTreeMap String String) : Outline String
  | [] => some .table
  | [name] => environment[name]?.map .leaf
  | _ => none

def IsText (text : String) (value : Json) : Prop := value = .str text

/-- No name is taken that another is in letters of either case. -/
theorem extendNativeEnv_spec {componentId : String} {entries : List (String × String)}
    (extended : entries.foldlM (addNativeEnv componentId env) environment = .ok result) :
    (∀ name value, result[name]? = some value ↔ environment[name]? = some value ∨ (name,value) ∈ entries) ∧
      ∀ entry ∈ entries, ∀ set, set ∈ environment ∨ set ∈ entryNames env → eqIgnoreAsciiCase set entry.1 = false := by
  induction entries generalizing environment with
  | nil =>
    cases extended
    simp
  | cons entry rest ih =>
    rw [List.foldlM_cons,bind_ok] at extended
    obtain ⟨next,one,others⟩ := extended
    unfold addNativeEnv at one
    split at one
    · cases one
    · rename_i free
      cases one
      obtain ⟨values,apart⟩ := ih others
      have alone : ∀ set, set ∈ environment ∨ set ∈ entryNames env → eqIgnoreAsciiCase set entry.1 = false := by
        intro set taken
        refine Bool.eq_false_iff.mpr fun same => free (List.any_eq_true.mpr ⟨set,?_,same⟩)
        exact List.mem_append.mpr (taken.imp_left Std.ExtTreeMap.mem_keys.mpr)
      have absent : environment[entry.1]? = none := by
        refine BTreeMap.not_mem_iff.mp fun there => ?_
        have other := alone entry.1 (.inl there)
        simp [eqIgnoreAsciiCase] at other
      refine ⟨fun name value => ?_,?_⟩
      · rw [values,BTreeMap.get_insert,List.mem_cons]
        by_cases here : entry.1 = name
        · subst here
          simp [absent,Prod.ext_iff,eq_comm]
        · have other : (name,value) ≠ entry := fun same => here (same ▸ rfl)
          simp [here,other]
      · intro later member set taken
        obtain rfl | member := List.mem_cons.mp member
        · exact alone set taken
        · refine apart later member set (taken.imp_left fun there => ?_)
          rw [Std.ExtTreeMap.mem_insert]
          exact .inr there

theorem extendNativeEnv_joined {native : BTreeMap String String}
    (proper : (authored component "native_env").Proper) (found : nativeEnv component = .ok native)
    (extended : extendNativeEnv component.id native environment env = .ok result) (path : List String) :
    Joined IsText (environmentOutline environment path) (outlineOf (authored component "native_env") path)
      (environmentOutline result path) := by
  obtain ⟨values,apart⟩ := extendNativeEnv_spec extended
  have text (name : String) (json : Json) (there : fieldAt (authored component "native_env") name = some json) :
      ∃ value, json = .str value ∧ native[name]? = some value := by
    obtain ⟨value,read⟩ := read_authored proper found there
    refine ⟨value,?_,?_⟩
    · cases json <;> cases read
      rfl
    · rw [get_optionalConfigObject proper found name,there]
      exact read
  match path with
  | [] => exact .entered
  | [name] =>
    rw [environmentOutline,environmentOutline]
    cases there : fieldAt (authored component "native_env") name with
    | none =>
      have unasked : native[name]? = none := by
        rw [get_optionalConfigObject proper found name,there]
        rfl
      have same : result[name]? = environment[name]? := by
        refine Option.ext fun value => ?_
        rw [values,mem_toList,unasked]
        simp
      rw [outlineOf_none there,same]
      exact .kept _
    | some json =>
      obtain ⟨value,rfl,asked⟩ := text name json there
      have listed : (name,value) ∈ native.toList := mem_toList.mpr asked
      have free : environment[name]? = none := by
        refine BTreeMap.not_mem_iff.mp fun taken => ?_
        have other := apart (name,value) listed name (.inl taken)
        simp [eqIgnoreAsciiCase] at other
      rw [outlineOf_leaf there (by simp),free,(values name value).mpr (.inr listed)]
      exact .added rfl
  | name :: other :: rest =>
    have none_ : outlineOf (authored component "native_env") (name :: other :: rest) = none := by
      cases there : fieldAt (authored component "native_env") name with
      | none => exact outlineOf_none there _
      | some json =>
        obtain ⟨value,rfl,-⟩ := text name json there
        exact outlineOf_leaf there (by simp) _
    rw [none_]
    exact .kept none

theorem environmentOutline_closed (environment : BTreeMap String String) : Closed (environmentOutline environment) := by
  intro path key other
  match path with
  | [] => exact absurd rfl other
  | [_] => rfl
  | _ :: _ :: _ => rfl

/-! ### Both -/

/-- For every document and environment that was rendered, and every override in the
    configuration of the component, either rendering fails or what was rendered is
    kept, each override is there beside it, and there is nothing else. Recorded are
    exactly the leaves that were added, and the empty tables among the overrides for
    which a table had been rendered. No name of the environment is overridden in
    letters of another case. -/
theorem native_overrides_add [TomlEdit] (faithful : Faithful) :
    (∀ (component : ComponentSpec) (rendered text : String) (overrides : BTreeMap String Json) (form : TomlEdit.Form)
      (table : DocumentTable), component.implementation = "cdk" → (authored component "native_toml").Proper →
      nativeToml component = .ok overrides → TomlEdit.parse rendered = .ok (form,table) →
      mergeNativeToml component.id rendered overrides = .ok text →
        ∃ form' result, TomlEdit.parse text = .ok (form',result) ∧
          Overlaid Says table.outline (outlineOf (authored component "native_toml")) result.outline ∧
          Recorded table.outline (outlineOf (authored component "native_toml")) result.outline (overrideKeys component)) ∧
    (∀ (component : ComponentSpec) (native environment result : BTreeMap String String) (env : List Json),
      component.implementation = "nutshell" → (authored component "native_env").Proper →
      nativeEnv component = .ok native → extendNativeEnv component.id native environment env = .ok result →
        Overlaid IsText (environmentOutline environment) (outlineOf (authored component "native_env"))
          (environmentOutline result) ∧
        Recorded (environmentOutline environment) (outlineOf (authored component "native_env"))
          (environmentOutline result) (overrideKeys component) ∧
        ∀ name ∈ native, ∀ set, set ∈ environment ∨ set ∈ entryNames env → eqIgnoreAsciiCase set name = false) := by
  constructor
  · intro component rendered text overrides form table implementation proper found read merged
    obtain ⟨form',result,back,joined⟩ := mergeNativeToml_joined faithful proper found read merged
    refine ⟨form',result,back,.of_joined _ joined,?_⟩
    rw [overrideKeys_eq ⟨"native_toml",false,cdkToml⟩ (by rw [implementation]; rfl) (object_of_read found)]
    exact recorded proper table.outline_closed rfl joined
  · intro component native environment result env implementation proper found extended
    have joined := extendNativeEnv_joined proper found extended
    refine ⟨.of_joined _ joined,?_,?_⟩
    · rw [overrideKeys_eq ⟨"native_env",true,nutshellEnv⟩ (by rw [implementation]; rfl) (object_of_read found)]
      exact recorded proper (environmentOutline_closed environment) rfl joined
    · intro name member set taken
      obtain ⟨value,there⟩ := BTreeMap.mem_iff.mp member
      exact (extendNativeEnv_spec extended).2 (name,value) (mem_toList.mpr there) set taken

/-! ### Documents of texts and flags -/

/-- A table of texts and flags. -/
abbrev PlainTable := TomlTable (Bool ⊕ String) Unit Empty

mutual
def encodeItem : TomlItem (Bool ⊕ String) Unit Empty → Json
  | .value (.inl flag) => .bool flag
  | .value (.inr text) => .str text
  | .table _ entries => .obj (encode entries)
  | .arrayOfTables tables => tables.elim
def encode : PlainTable → Fields
  | .nil => .nil
  | .cons key item rest => .cons key (encodeItem item) (encode rest)
end

mutual
theorem encodeItem_inj : ∀ {a b : TomlItem (Bool ⊕ String) Unit Empty}, encodeItem a = encodeItem b → a = b
  | .value (.inl _),.value (.inl _),same => by
    cases same
    rfl
  | .value (.inr _),.value (.inr _),same => by
    cases same
    rfl
  | .table _ a,.table _ b,same => by
    rw [encode_inj (Json.obj.inj same)]
  | .value (.inl _),.value (.inr _),same => by cases same
  | .value (.inl _),.table _ _,same => by cases same
  | .value (.inr _),.value (.inl _),same => by cases same
  | .value (.inr _),.table _ _,same => by cases same
  | .table _ _,.value (.inl _),same => by cases same
  | .table _ _,.value (.inr _),same => by cases same
  | .arrayOfTables tables,_,_ => tables.elim
  | _,.arrayOfTables tables,_ => tables.elim
theorem encode_inj : ∀ {a b : PlainTable}, encode a = encode b → a = b
  | .nil,.nil,_ => rfl
  | .cons _ a rest,.cons _ b other,same => by
    obtain ⟨rfl,first,others⟩ := Fields.cons.inj same
    rw [encodeItem_inj first,encode_inj others]
  | .nil,.cons _ _ _,same => by cases same
  | .cons _ _ _,.nil,same => by cases same
end

def infoUrl : PlainTable := .cons "info" (.table () (.cons "url" (.value (.inr "http://mint:3338")) .nil)) .nil

def infoUrlFlag : PlainTable :=
  .cons "info" (.table () (.cons "url" (.value (.inr "http://mint:3338"))
    (.cons "new_flag" (.value (.inl true)) .nil))) .nil

def infoUrlText : String := "[info]\nurl = \"http://mint:3338\"\n"

def infoUrlFlagText : String := infoUrlText ++ "new_flag = true\n"

/-- Two documents have the text that they have in TOML, all others one of their own. -/
def printPlain (table : PlainTable) : String :=
  if encode table = encode infoUrl then infoUrlText
  else if encode table = encode infoUrlFlag then infoUrlFlagText
  else (Json.obj (encode table)).text

open Classical in
@[reducible] noncomputable def plain : TomlEdit where
  Value := Bool ⊕ String
  Form := Unit
  ArrayOfTables := Empty
  Data := Bool ⊕ String
  parse text := if h : ∃ table : PlainTable, (encode table).Proper ∧ printPlain table = text then .ok ((),h.choose)
    else .error "expected a document"
  print _ table := printPlain table
  serialize
    | .bool flag => .ok (.inl flag)
    | .str text => .ok (.inr text)
    | _ => .error "unsupported type"
  created := ()
  hidden _ := false
  data := id
  tables := Empty.elim
  json
    | .inl flag => some (.bool flag)
    | .inr text => some (.str text)

theorem encode_containsKey (key : String) :
    ∀ table : PlainTable, (encode table).containsKey key = false ↔ table.get key = none
  | .nil => by simp [encode,Fields.containsKey,Fields.toList]
  | .cons other item rest => by
    have ih := encode_containsKey key rest
    rw [Fields.containsKey] at ih
    rw [encode,Fields.containsKey,Fields.toList,List.any_cons,Bool.or_eq_false_iff,ih,TomlTable.get_cons]
    by_cases same : other = key <;> simp [same]

mutual
theorem encodeItem_proper : ∀ item : TomlItem (Bool ⊕ String) Unit Empty,
    (encodeItem item).Proper ↔ @TomlItem.Proper plain item
  | .value (.inl _) => Iff.rfl
  | .value (.inr _) => Iff.rfl
  | .table _ entries => by
    have ih := encode_proper entries
    exact ⟨fun proper => ⟨fun hidden => absurd hidden Bool.false_ne_true,ih.mp proper⟩,fun proper => ih.mpr proper.2⟩
  | .arrayOfTables tables => tables.elim
theorem encode_proper : ∀ table : PlainTable, (encode table).Proper ↔ @TomlTable.Proper plain table
  | .nil => Iff.rfl
  | .cons key item rest =>
    and_congr (encode_containsKey key rest) (and_congr (encodeItem_proper item) (encode_proper rest))
end

theorem text_brace (fields : Fields) : (Json.obj fields).text.toList.head? = some '\x7b' := by
  rw [Json.text,String.toList_ofList,Json.write]
  rfl

theorem text_inj {a b : Json} (left : a.Proper) (right : b.Proper) (same : a.text = b.text) : a = b := by
  have read := Json.ofText_text left
  rw [same,Json.ofText_text right] at read
  exact (Option.some.inj read).symm

/-- Documents that can be written have texts of their own. -/
theorem printPlain_inj {a b : PlainTable} (left : (encode a).Proper) (right : (encode b).Proper)
    (same : printPlain a = printPlain b) : a = b := by
  have apart (table : PlainTable) (text : String) (bracket : text.toList.head? = some '[') :
      text ≠ (Json.obj (encode table)).text := by
    rintro rfl
    rw [text_brace] at bracket
    cases bracket
  have url : ∀ table, infoUrlText ≠ (Json.obj (encode table)).text := fun table => apart table _ (by decide)
  have flag : ∀ table, infoUrlFlagText ≠ (Json.obj (encode table)).text := fun table => apart table _ (by decide)
  have texts : infoUrlText ≠ infoUrlFlagText := by decide
  unfold printPlain at same
  split at same
  · rename_i first
    split at same
    · rename_i second
      exact encode_inj (first.trans second.symm)
    · split at same
      · exact absurd same texts
      · exact absurd same (url b)
  · split at same
    · rename_i first
      split at same
      · exact absurd same.symm texts
      · split at same
        · rename_i second
          exact encode_inj (first.trans second.symm)
        · exact absurd same (flag b)
    · split at same
      · exact absurd same.symm (url a)
      · split at same
        · exact absurd same.symm (flag a)
        · exact encode_inj (Json.obj.inj (text_inj left right same))

theorem parse_printPlain {table : PlainTable} (proper : (encode table).Proper) :
    plain.parse (printPlain table) = .ok ((),table) := by
  have there : ∃ other : PlainTable, (encode other).Proper ∧ printPlain other = printPlain table := ⟨table,proper,rfl⟩
  have same := printPlain_inj there.choose_spec.1 proper there.choose_spec.2
  exact (dif_pos there).trans (by rw [same])

theorem plain_faithful : @Faithful plain := by
  refine @Faithful.mk plain ?_ ?_ ?_ rfl
  · intro value item written
    cases value with
    | bool flag =>
      cases written
      rfl
    | str text =>
      cases written
      rfl
    | null => cases written
    | num text => cases written
    | arr items => cases written
    | obj fields => cases written
  · intro text form table read
    by_cases there : ∃ table : PlainTable, (encode table).Proper ∧ printPlain table = text
    · have opened := (dif_pos there).symm.trans read
      cases opened
      exact (encode_proper _).mp there.choose_spec.1
    · have closed := (dif_neg there).symm.trans read
      cases closed
  · intro form table proper
    exact ⟨(),table,parse_printPlain ((encode_proper table).mpr proper),rfl⟩

/-- A mint whose configuration has native overrides. -/
def cdkMint (overrides : Json) : ComponentSpec :=
  ⟨"mint",.mint,"cdk",none,"cdk-mintd/0.18/v1",.target,[("native_toml",overrides)]⟩

def newFlag : Json := .object [("info",.object [("new_flag",.bool true)])]

def emptyInfo : Json := .object [("info",.object [])]

theorem parse_infoUrlText : plain.parse infoUrlText = .ok ((),infoUrl) := by
  have proper : (encode infoUrl).Proper := ⟨rfl,⟨rfl,trivial,trivial⟩,trivial⟩
  have text : printPlain infoUrl = infoUrlText := if_pos rfl
  exact text ▸ parse_printPlain proper

/-- What a merge comes to, for overrides that are not empty. -/
theorem mergeNativeToml_plain {overrides : BTreeMap String Json} {merged : PlainTable} (some_ : overrides.toList ≠ [])
    (called : @mergeTomlTable plain infoUrl "" (.ofList overrides.toList) = .ok merged) :
    @mergeNativeToml plain "mint" infoUrlText overrides = .ok (printPlain merged) := by
  unfold mergeNativeToml
  dsimp only
  rw [if_neg some_,parse_infoUrlText]
  show Except.mapError _ (@mergeTomlTable plain infoUrl "" (.ofList overrides.toList)) >>= _ = _
  rw [called]
  rfl

/-- A new flag beside the URL of the mint. -/
theorem native_overrides_add_flag :
    ∃ form result, plain.parse infoUrlFlagText = .ok (form,result) ∧
      Overlaid (@Says plain) (@TomlTable.outline plain infoUrl) (outlineOf (authored (cdkMint newFlag) "native_toml"))
        (@TomlTable.outline plain result) ∧
      Recorded (@TomlTable.outline plain infoUrl) (outlineOf (authored (cdkMint newFlag) "native_toml"))
        (@TomlTable.outline plain result) (overrideKeys (cdkMint newFlag)) := by
  have merged : @mergeNativeToml plain "mint" infoUrlText (.collect [("info",.object [("new_flag",.bool true)])]) =
      .ok infoUrlFlagText := by
    have text : printPlain infoUrlFlag = infoUrlFlagText := by decide
    rw [← text]
    exact mergeNativeToml_plain (by decide) rfl
  exact (@native_overrides_add plain plain_faithful).1 (cdkMint newFlag) infoUrlText infoUrlFlagText
    (.collect [("info",.object [("new_flag",.bool true)])]) () infoUrl rfl ⟨rfl,⟨rfl,trivial,trivial⟩,trivial⟩ rfl
    parse_infoUrlText merged

/-- An empty table where there is a table is recorded, and adds no leaf. -/
theorem empty_table_recorded :
    ¬ ∀ (component : ComponentSpec) (rendered text : String) (overrides : BTreeMap String Json) (table result : PlainTable),
      component.implementation = "cdk" → (authored component "native_toml").Proper →
      nativeToml component = .ok overrides → plain.parse rendered = .ok ((),table) →
      @mergeNativeToml plain component.id rendered overrides = .ok text → plain.parse text = .ok ((),result) →
        ∃ leaves : List (List String), overrideKeys component = (leaves.map (".".intercalate ·)).insertionSort (· ≤ ·) ∧
          ∀ path, path ∈ leaves ↔
            @TomlTable.outline plain table path = none ∧ IsLeaf (@TomlTable.outline plain result) path := by
  intro exact_
  have merged : @mergeNativeToml plain "mint" infoUrlText (.collect [("info",.object [])]) = .ok infoUrlText := by
    have text : printPlain infoUrl = infoUrlText := if_pos rfl
    exact text ▸ mergeNativeToml_plain (by decide) rfl
  obtain ⟨leaves,keys,added⟩ := exact_ (cdkMint emptyInfo) infoUrlText infoUrlText (.collect [("info",.object [])]) infoUrl
    infoUrl rfl ⟨rfl,trivial,trivial⟩ rfl parse_infoUrlText merged parse_infoUrlText
  -- nothing was added, and so there is no leaf to record
  have none_ : leaves = [] := by
    refine List.eq_nil_iff_forall_not_mem.mpr fun path member => ?_
    obtain ⟨free,⟨data,leaf⟩ | ⟨table,-⟩⟩ := (added path).mp member
    · rw [free] at leaf
      cases leaf
    · rw [free] at table
      cases table
  rw [none_] at keys
  have recorded : overrideKeys (cdkMint emptyInfo) = ["info"] := by decide
  rw [recorded] at keys
  cases keys

end Proofstorm.Rendering
