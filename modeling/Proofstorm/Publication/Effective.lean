import Proofstorm.Publication.Lock
import Proofstorm.Authoring.Transfer
import Mathlib.Data.List.Dedup

/-!
The effective component: what an omitted setting resolves to is what every check
took it for, so a component and its effective one pass the same checks (`Resolves.alike`),
and resolving the effective one again changes nothing (`Resolves.again`).
-/
namespace Proofstorm.Publication
open Proofstorm.Core Validation

/-! ### Defaults -/

/-- The default that a list of settings gives one of them. -/
def defaultIn (fields : List (String × ConfigFieldContract)) (name : String) : Option ConfigDefault :=
  (fields.lookup name).bind fun field => if field.classification.isAgentAuthorable then field.default else none

def BackendContract.defaultOf (contract : BackendContract) (name : String) : Option ConfigDefault :=
  defaultIn contract.configFields name

theorem resolved_eq {field : ConfigFieldContract} {componentId : String} :
    field.resolved componentId =
      (if field.classification.isAgentAuthorable then field.default else none).map (resolveConfigDefault componentId) := by
  unfold ConfigFieldContract.resolved
  split_ifs <;> rfl

theorem lookup_resolvedDefaults {componentId : String} {fields : List (String × ConfigFieldContract)}
    (distinct : (fields.map Prod.fst).Nodup) (name : String) :
    (resolvedDefaults componentId fields).lookup name =
      (fields.lookup name).bind fun field => field.resolved componentId := by
  induction fields with
  | nil => rfl
  | cons entry rest ih =>
    rw [List.map_cons,List.nodup_cons] at distinct
    have later := ih distinct.2
    have absent : name = entry.1 → rest.lookup name = none := by
      rintro rfl
      rw [List.lookup_eq_none_iff]
      intro other member
      rw [bne_iff_ne]
      intro same
      exact distinct.1 (List.mem_map.mpr ⟨other,member,same.symm⟩)
    rw [Entries.lookup_cons]
    unfold resolvedDefaults at later ⊢
    cases found : entry.2.resolved componentId with
    | none =>
      rw [List.filterMap_cons_none (by simp [found]),later]
      split_ifs with here
      · rw [absent here,Option.bind_some,found]
        rfl
      · rfl
    | some value =>
      rw [List.filterMap_cons_some (by simp [found]; rfl),Entries.lookup_cons,later]
      split_ifs with here
      · rw [Option.bind_some,found]
      · rfl

/-! ### The declared settings -/

/-- The settings of a contract before they are put in order. -/
def declared (id : String) (configFields : List (String × ConfigFieldContract)) : List (String × ConfigFieldContract) :=
  configFields ++ managedConfigFields id ++ overrideField id ++ managementFields id

/-- No setting is declared twice. -/
abbrev Distinct (fields : List (String × ConfigFieldContract)) : Prop := (fields.map Prod.fst).Nodup

theorem ordered_perm {α : Type} (entries : List (String × α)) : (ordered entries).Perm entries :=
  List.perm_insertionSort _ entries

theorem defaultIn_perm {a b : List (String × ConfigFieldContract)} (perm : a.Perm b) (distinct : Distinct b)
    (name : String) : defaultIn a name = defaultIn b name := by
  unfold defaultIn
  rw [Entries.lookup_perm perm.symm distinct]

section
variable {id : String} {kind : ComponentKind} {configVersion : String}
  {configFields managed : List (String × ConfigFieldContract)} {servicePorts : List (String × Nat)}
  {executionStateContract : String}

theorem contract_perm :
    (contract id kind configVersion configFields servicePorts executionStateContract).configFields.Perm
      (declared id configFields) :=
  ordered_perm _

theorem managed_perm :
    ((contract id kind configVersion configFields servicePorts executionStateContract).withManaged
      managed).configFields.Perm (declared id configFields ++ managed) :=
  (ordered_perm _).trans (contract_perm.append_right _)

theorem contract_distinct (distinct : Distinct (declared id configFields)) :
    Distinct (contract id kind configVersion configFields servicePorts executionStateContract).configFields :=
  (contract_perm.map _).nodup_iff.mpr distinct

theorem managed_distinct (distinct : Distinct (declared id configFields ++ managed)) :
    Distinct ((contract id kind configVersion configFields servicePorts executionStateContract).withManaged
      managed).configFields :=
  (managed_perm.map _).nodup_iff.mpr distinct

end

theorem cdk_distinct : Distinct (declared "cdk" cdkConfigFields) := by
  simp [Distinct,declared,cdkConfigFields,cdkMintInfoConfigFields,cdkLightningLimitFields,cdkBackendSelectionFields,
    managedConfigFields,overrideField,managementFields,overrides,topology,secret,policy]

theorem nutshell_distinct : Distinct (declared "nutshell" nutshellConfigFields) := by
  simp [Distinct,declared,nutshellConfigFields,managedConfigFields,overrideField,managementFields,overrides,topology,
    secret,policy]

/-- No contract declares a setting twice. -/
theorem fields_distinct {contract : BackendContract} (installed : contract ∈ defaultRegistry) :
    Distinct contract.configFields := by
  simp only [defaultRegistry,List.mem_cons,List.not_mem_nil,or_false] at installed
  rcases installed with rfl | rfl | rfl | rfl | rfl | rfl | rfl | rfl | rfl | rfl | rfl | rfl | rfl | rfl | rfl | rfl |
    rfl | rfl | rfl | rfl
  · exact contract_distinct (by decide +kernel)
  · exact contract_distinct (by decide +kernel)
  · exact contract_distinct (by decide +kernel)
  · exact contract_distinct cdk_distinct
  · exact contract_distinct nutshell_distinct
  iterate 7 exact contract_distinct (by decide +kernel)
  -- The stacks declare their managed settings beside the contract.
  iterate 8 exact managed_distinct (by decide +kernel)

theorem defaultOf_cdk (name : String) : cdk.defaultOf name = defaultIn (declared "cdk" cdkConfigFields) name :=
  defaultIn_perm contract_perm cdk_distinct name

theorem defaultOf_nutshell (name : String) :
    nutshell.defaultOf name = defaultIn (declared "nutshell" nutshellConfigFields) name :=
  defaultIn_perm contract_perm nutshell_distinct name

/-- A configuration is an ordered map. -/
def Mapped (component : ComponentSpec) : Prop := Entries.Sorted component.config

theorem get_effective {contract : BackendContract} (installed : contract ∈ defaultRegistry) {component : ComponentSpec}
    (mapped : Mapped component) (name : String) :
    (contract.effective component).get name =
      (component.get name).or ((contract.defaultOf name).map (resolveConfigDefault component.id)) := by
  unfold ComponentSpec.get BackendContract.effective fillDefaults
  rw [Entries.lookup_defaults mapped,lookup_resolvedDefaults (fields_distinct installed),BackendContract.defaultOf,
    defaultIn,Option.map_bind]
  congr 2
  funext field
  exact resolved_eq

theorem effective_mapped {contract : BackendContract} {component : ComponentSpec} (mapped : Mapped component) :
    Mapped (contract.effective component) :=
  mapped.defaults _

theorem effective_effective {contract : BackendContract} {component : ComponentSpec} (mapped : Mapped component) :
    contract.effective (contract.effective component) = contract.effective component := by
  unfold BackendContract.effective fillDefaults
  dsimp only
  rw [Entries.defaults_defaults mapped]

/-! ### Resolving a component -/

/-- What it takes for a component to resolve to another under a catalog. -/
structure Resolves (catalog : CatalogResponse) (contract : BackendContract) (component effective : ComponentSpec) :
    Prop where
  found : defaultRegistry.require component.implementation = .ok contract
  kind : contract.kind = component.kind
  authored : contract.validateConfig component false = .ok ⟨⟩
  checked : contract.validateConfig effective true = .ok ⟨⟩
  is : effective = contract.effective component
  release : ∃ entry, validateCatalogComponent component catalog = .ok entry
  release' : ∃ entry, validateCatalogComponent effective catalog = .ok entry

theorem resolveComponent_ok {catalog : CatalogResponse} {component effective : ComponentSpec} :
    resolveComponent catalog component = .ok effective ↔ ∃ contract, Resolves catalog contract component effective := by
  simp only [resolveComponent,Registry.resolveEffectiveComponent,bind_ok,pure_ok,ensure_ok]
  constructor
  · rintro ⟨entry,release,_,⟨contract,found,_,kind,_,authored,_,checked,rfl⟩,entry',release',rfl⟩
    exact ⟨contract,found,kind,authored,checked,rfl,⟨entry,release⟩,entry',release'⟩
  · rintro ⟨contract,found,kind,authored,checked,rfl,⟨entry,release⟩,entry',release'⟩
    exact ⟨entry,release,_,⟨contract,found,⟨⟩,kind,⟨⟩,authored,⟨⟩,checked,rfl⟩,entry',release',rfl⟩

section
variable {catalog : CatalogResponse} {contract : BackendContract} {component effective : ComponentSpec}

section
variable (resolves : Resolves catalog contract component effective)
include resolves

theorem Resolves.installed : contract ∈ defaultRegistry :=
  List.mem_of_find?_eq_some (require_ok.mp resolves.found)

theorem Resolves.same_id : effective.id = component.id :=
  resolves.is ▸ rfl

theorem Resolves.unique {contract' : BackendContract} {component' effective' : ComponentSpec}
    (resolves' : Resolves catalog contract' component' effective')
    (same : component.implementation = component'.implementation) : contract = contract' := by
  have found := resolves.found
  rw [same,resolves'.found] at found
  cases found
  rfl
end

/-- A configuration that was checked as an effective one passes as an authored one. -/
theorem validateConfig_authored (checked : contract.validateConfig component true = .ok ⟨⟩) :
    contract.validateConfig component false = .ok ⟨⟩ := by
  unfold BackendContract.validateConfig at checked ⊢
  cases entries : component.config.findSome? (contract.entryViolation component) with
  | some message =>
    rw [entries] at checked
    cases checked
  | none =>
    rw [entries] at checked
    dsimp only at checked ⊢
    cases texts : contract.textViolation component with
    | some message =>
      rw [texts] at checked
      cases checked
    | none =>
      rw [texts] at checked
      dsimp only at checked ⊢
      rw [if_pos rfl] at checked
      cases missing : contract.configFields.findSome? (missingField component) with
      | some message =>
        rw [missing] at checked
        cases checked
      | none =>
        rw [missing] at checked
        exact checked

/-- An effective component resolves to itself. -/
theorem Resolves.again (resolves : Resolves catalog contract component effective) (mapped : Mapped component) :
    Resolves catalog contract effective effective where
  found := by rw [resolves.is]; exact resolves.found
  kind := by rw [resolves.is]; exact resolves.kind
  authored := validateConfig_authored resolves.checked
  checked := resolves.checked
  is := by rw [resolves.is,effective_effective mapped]
  release := resolves.release'
  release' := resolves.release'

end

/-! ### What the checks read -/

section
variable {component : ComponentSpec}

/-- A default that is a text is read as one. -/
theorem asStr_effective {contract : BackendContract} (installed : contract ∈ defaultRegistry)
    (mapped : Mapped component) {name text : String}
    (default : contract.defaultOf name = some (.literal (.str text))) :
    ((contract.effective component).get name).bind Json.asStr =
      ((component.get name).or (some (.str text))).bind Json.asStr := by
  rw [get_effective installed mapped,default]
  rfl

/-- The text of a setting, or its default, is the same where the default is written. -/
theorem configured_effective {contract : BackendContract} (installed : contract ∈ defaultRegistry)
    (mapped : Mapped component) {name text : String}
    (default : contract.defaultOf name = some (.literal (.str text))) :
    configured component name text = configured (contract.effective component) name text := by
  unfold configured
  rw [asStr_effective installed mapped default]
  cases component.get name <;> rfl

/-- A text that differs from the default is an authored one. -/
theorem differs_effective {contract : BackendContract} (installed : contract ∈ defaultRegistry)
    (mapped : Mapped component) {name text : String}
    (default : contract.defaultOf name = some (.literal (.str text))) :
    ((component.get name).bind Json.asStr).any (· ≠ text) =
      (((contract.effective component).get name).bind Json.asStr).any (· ≠ text) := by
  rw [asStr_effective installed mapped default]
  cases component.get name with
  | some value => rfl
  | none => simp [Json.asStr]

end

section
variable {catalog : CatalogResponse} {contract : BackendContract} {component effective : ComponentSpec}

theorem Resolves.contract_eq (resolves : Resolves catalog contract component effective) {id : String}
    (implementation : component.implementation = id) {named : BackendContract}
    (installed : defaultRegistry.require id = .ok named) : contract = named := by
  have found := resolves.found
  rw [implementation,installed] at found
  cases found
  rfl

theorem require_bitcoinCore : defaultRegistry.require "bitcoin-core" = .ok bitcoinCore := rfl
theorem require_cdk : defaultRegistry.require "cdk" = .ok cdk := rfl
theorem require_nutshell : defaultRegistry.require "nutshell" = .ok nutshell := rfl
theorem require_barkProcessor : defaultRegistry.require barkProcessor = .ok barkProcessorContract := rfl

theorem defaultOf_txindex : bitcoinCore.defaultOf "txindex" = some (.literal (.bool true)) := by decide +kernel

theorem defaultOf_override : cdk.defaultOf "allow_mint_quote_payment_override" = some (.literal (.bool false)) := by
  rw [defaultOf_cdk]
  decide +kernel

/-- Settings that pass through to a mint have no default. -/
theorem Resolves.defaultOf_native (resolves : Resolves catalog contract component effective) {o : Overrides}
    (taken : overrides component.implementation = some o) : contract.defaultOf o.field = none := by
  unfold overrides at taken
  split_ifs at taken with isNutshell isCdk
  · cases taken
    rw [resolves.contract_eq isNutshell require_nutshell,defaultOf_nutshell]
    decide +kernel
  · cases taken
    rw [resolves.contract_eq isCdk require_cdk,defaultOf_cdk]
    decide +kernel

/-- The processor that selects its methods advertises all of them by default. -/
theorem defaultOf_methods : barkProcessorContract.defaultOf "payment_methods" =
    some (.literal (Json.array (ProcessorProfile.bark.supportedMethods.map fun method => .str method.asStr))) := by
  decide +kernel

theorem advertisedMethods_effective (installed : barkProcessorContract ∈ defaultRegistry) (mapped : Mapped component) :
    ProcessorProfile.bark.advertisedMethods component =
      ProcessorProfile.bark.advertisedMethods (barkProcessorContract.effective component) := by
  unfold ProcessorProfile.advertisedMethods
  rw [get_effective installed mapped,defaultOf_methods]
  cases component.get "payment_methods" with
  | some value => rfl
  | none =>
    simp only [Option.map_some,resolveConfigDefault,Option.none_or]
    decide +kernel

theorem advertisedMethods_fixed {profile : ProcessorProfile} (fixed : profile.configurable = false)
    {component : ComponentSpec} : profile.advertisedMethods component = some profile.supportedMethods := by
  unfold ProcessorProfile.advertisedMethods
  have none : (component.get "payment_methods").filter (fun _ => profile.configurable) = none := by
    simp [fixed]
  rw [none]

theorem implementation_of_bark {implementation : String}
    (profiled : ProcessorProfile.forImplementation implementation = some .bark) : implementation = barkProcessor := by
  unfold ProcessorProfile.forImplementation at profiled
  split_ifs at profiled with ldk bark spark
  · cases profiled
  · exact bark
  · cases profiled

/-- Every check reads a component and its effective one alike. -/
theorem Resolves.alike (resolves : Resolves catalog contract component effective) (mapped : Mapped component) :
    Alike component effective := by
  have installed := resolves.installed
  rw [resolves.is]
  constructor
  · rfl
  · rfl
  · rfl
  · rfl
  · rfl
  · rfl
  · intro named
    cases resolves.contract_eq named require_nutshell
    exact differs_effective installed mapped (by rw [defaultOf_nutshell]; decide +kernel)
  · intro named
    cases resolves.contract_eq named require_nutshell
    exact differs_effective installed mapped (by rw [defaultOf_nutshell]; decide +kernel)
  · intro named
    cases resolves.contract_eq named require_bitcoinCore
    rw [get_effective installed mapped,defaultOf_txindex]
    cases component.get "txindex" <;> simp [resolveConfigDefault]
  · intro profile profiled
    cases profile with
    | ldkServer | spark => rw [advertisedMethods_fixed rfl,advertisedMethods_fixed rfl]
    | bark =>
      cases resolves.contract_eq (implementation_of_bark profiled) require_barkProcessor
      exact advertisedMethods_effective installed mapped
  · intro named
    cases resolves.contract_eq named require_cdk
    exact configured_effective installed mapped (by rw [defaultOf_cdk]; decide +kernel)
  · intro named
    cases resolves.contract_eq named require_cdk
    exact configured_effective installed mapped (by rw [defaultOf_cdk]; decide +kernel)
  · intro named
    cases resolves.contract_eq named require_cdk
    exact configured_effective installed mapped (by rw [defaultOf_cdk]; decide +kernel)
  · intro named
    cases resolves.contract_eq named require_cdk
    rw [get_effective installed mapped,defaultOf_override]
    cases component.get "allow_mint_quote_payment_override" <;> simp [resolveConfigDefault,Json.asBool]
  · intro o taken
    rw [get_effective installed mapped,resolves.defaultOf_native taken]
    simp

/-! ### Advertised methods -/

/-- What a checked configuration holds for a setting has its type and its bounds. -/
theorem violation_of_checked (checked : contract.validateConfig component false = .ok ⟨⟩) {name : String} {value : Json}
    (set : component.get name = some value) {field : ConfigFieldContract}
    (declares : contract.configFields.lookup name = some field)
    (authorable : field.classification.isAgentAuthorable = true) : field.violation value = none := by
  unfold BackendContract.validateConfig at checked
  cases entries : component.config.findSome? (contract.entryViolation component) with
  | some message =>
    rw [entries] at checked
    cases checked
  | none =>
    have passes := List.findSome?_eq_none_iff.mp entries (name,value) (Entries.mem_of_lookup set)
    simpa [BackendContract.entryViolation,declares,authorable] using passes

/-- The setting that a Bark processor selects its methods by. -/
def methodsField : ConfigFieldContract :=
  (configField .stringSet (.literal (Json.array (ProcessorProfile.bark.supportedMethods.map
    fun method => .str method.asStr)))).withEnumValues (ProcessorProfile.bark.supportedMethods.map PaymentMethod.asStr)

theorem lookup_methodsField : barkProcessorContract.configFields.lookup "payment_methods" = some methodsField :=
  (Entries.lookup_perm managed_perm (managed_distinct (by decide +kernel)) _).trans rfl

theorem methods_of_names {names : List Json}
    (declared : ∀ name ∈ names, name ∈ ProcessorProfile.bark.supportedMethods.map fun method => Json.str method.asStr) :
    ∃ methods : List PaymentMethod, names = methods.map (fun method => Json.str method.asStr) ∧
      ∀ method ∈ methods, method ∈ ProcessorProfile.bark.supportedMethods := by
  induction names with
  | nil => exact ⟨[],rfl,nofun⟩
  | cons name rest ih =>
    obtain ⟨methods,rfl,supported⟩ := ih fun other member => declared other (List.mem_cons_of_mem _ member)
    obtain ⟨method,known,rfl⟩ := List.mem_map.mp (declared _ List.mem_cons_self)
    exact ⟨method :: methods,rfl,List.forall_mem_cons.mpr ⟨known,supported⟩⟩

variable {methods : List PaymentMethod}

theorem mapM_parse (supported : ∀ method ∈ methods, method ∈ ProcessorProfile.bark.supportedMethods) :
    (methods.map fun method => Json.str method.asStr).mapM (fun item => item.asStr.bind PaymentMethod.parse) =
      some methods := by
  have each : ∀ method ∈ ProcessorProfile.bark.supportedMethods, PaymentMethod.parse method.asStr = some method := by
    decide +kernel
  induction methods with
  | nil => rfl
  | cons method rest ih =>
    obtain ⟨known,others⟩ := List.forall_mem_cons.mp supported
    have first : (Json.str method.asStr).asStr.bind PaymentMethod.parse = some method := each method known
    rw [List.map_cons,List.mapM_cons,first,ih others]
    rfl

theorem length_methodSet (distinct : methods.Nodup) :
    (methodSet methods).length = methods.length := by
  unfold methodSet
  have perm := List.perm_insertionSort (fun a b : PaymentMethod => toLex a.rank ≤ toLex b.rank) methods
  rw [List.dedup_eq_self.mpr (perm.nodup_iff.mpr distinct),perm.length_eq]

theorem mem_methodSet {method : PaymentMethod} :
    method ∈ methodSet methods ↔ method ∈ methods := by
  unfold methodSet
  rw [List.mem_dedup,(List.perm_insertionSort _ methods).mem_iff]

/-- A set of methods that a configuration may hold is one that the processor advertises. -/
theorem advertised_of_violation {value : Json} (passes : methodsField.violation value = none)
    (set : component.get "payment_methods" = some value) :
    (ProcessorProfile.bark.advertisedMethods component).isSome := by
  have typed : methodsField.valueKind.isTypeOf value = true := by
    by_contra other
    rw [Bool.not_eq_true] at other
    simp [ConfigFieldContract.violation,other] at passes
  cases value with
  | arr items =>
    simp only [ConfigFieldContract.violation,typed,Json.asArray,Bool.not_true,Bool.false_eq_true,if_false] at passes
    split_ifs at passes with repeated foreign
    simp only [Bool.or_eq_true,List.isEmpty_iff,decide_eq_true_eq,not_or,not_not] at repeated
    obtain ⟨there,distinct⟩ := repeated
    have known : ∀ name ∈ items.toList, name ∈ ProcessorProfile.bark.supportedMethods.map
        fun method => Json.str method.asStr := by
      have listed : methodsField.enumValues =
          ProcessorProfile.bark.supportedMethods.map fun method => Json.str method.asStr := rfl
      rw [listed,Bool.and_eq_true,not_and,Bool.not_eq_true',Bool.not_eq_true',Bool.not_eq_false] at foreign
      simpa only [List.all_eq_true,List.contains_iff_mem] using foreign rfl
    obtain ⟨methods,shape,supported⟩ := methods_of_names known
    have names : items.toList.filterMap Json.asStr = methods.map PaymentMethod.asStr := by
      rw [shape]
      simp [List.filterMap_map,Function.comp_def,Json.asStr]
    have unique : methods.Nodup := by
      rw [names,shape,List.length_map] at distinct
      have whole : (methods.map PaymentMethod.asStr).dedup = methods.map PaymentMethod.asStr :=
        (List.dedup_sublist _).eq_of_length (by rw [distinct,List.length_map])
      exact (List.dedup_eq_self.mp whole).of_map
    have accepted : ProcessorProfile.bark.acceptsMethods (methodSet methods) = true := by
      have some : methodSet methods ≠ [] := by
        intro empty
        have length := length_methodSet unique
        rw [empty,List.length_nil,eq_comm,List.length_eq_zero_iff] at length
        exact there (by rw [shape,length]; rfl)
      simp only [ProcessorProfile.acceptsMethods,Bool.and_eq_true,Bool.not_eq_true',List.isEmpty_eq_false_iff,
        List.all_eq_true,List.contains_iff_mem,mem_methodSet]
      exact ⟨⟨some,supported⟩,rfl⟩
    have read : ProcessorProfile.bark.advertisedMethods component = some (methodSet methods) := by
      unfold ProcessorProfile.advertisedMethods
      rw [set]
      simp only [ProcessorProfile.configurable,Option.filter_some,if_true,Json.asArray,shape,Option.bind_eq_bind,
        Option.bind_some,mapM_parse supported,length_methodSet unique,List.length_map,accepted,decide_true,Bool.and_true]
    rw [read]
    rfl
  | null | bool | num | str | obj => cases typed

theorem Resolves.advertised (resolves : Resolves catalog contract component effective) {profile : ProcessorProfile}
    (profiled : ProcessorProfile.forImplementation component.implementation = some profile) :
    (profile.advertisedMethods component).isSome := by
  cases profile with
  | ldkServer | spark =>
    rw [advertisedMethods_fixed rfl]
    rfl
  | bark =>
    cases resolves.contract_eq (implementation_of_bark profiled) require_barkProcessor
    cases set : component.get "payment_methods" with
    | none => simp [ProcessorProfile.advertisedMethods,set]
    | some value =>
      exact advertised_of_violation (violation_of_checked resolves.authored set lookup_methodsField rfl) set

end

end Proofstorm.Publication
