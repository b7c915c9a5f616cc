import Proofstorm.Authoring.Rearrange
import Proofstorm.Authoring.Methods

/-!
The remaining checks of a cell under a rearrangement: payment processors, CDK
mints and native settings. The loops over the links of a mint remember what they
have seen; what they refuse is a condition on pairs of links, whichever comes first.
-/
namespace Proofstorm.Validation
open Proofstorm.Core

/-! ### Processors -/

variable {units : List String} {a b bindings : List (Option DependencyBinding)} {profile : ProcessorProfile}
  {client : String}

theorem Binds.perm (perm : a.Perm b)
    (binds : Binds units none [] a) : Binds units none [] b := by
  have pairs : (payments a).Perm (payments b) := perm.filterMap _
  constructor
  · exact fun binding member => binds.payment binding (perm.mem_iff.mpr member)
  · exact fun pair member => binds.supported pair (pairs.mem_iff.mpr member)
  · rintro pair member u ⟨⟩
  · exact fun pair member other member' => binds.one pair (pairs.mem_iff.mpr member) other (pairs.mem_iff.mpr member')
  · exact (pairs.map _).nodup_iff.mp binds.once
  · exact fun pair member => binds.fresh pair (pairs.mem_iff.mpr member)

theorem isSome_lastUnit_iff
    (binds : Binds units none [] bindings) : (lastUnit none bindings).isSome ↔ bindings ≠ [] := by
  cases bindings with
  | nil => simp [lastUnit]
  | cons binding rest =>
    have paid := binds.payment binding List.mem_cons_self
    cases binding with
    | none => cases paid
    | some binding =>
      cases binding with
      | payment method bound =>
        have there : (lastUnit (some bound) rest).isSome := isSome_lastUnit rfl rest
        simpa [lastUnit] using there
      | chain | ark | spark | database | authentication => cases paid

/-- The methods that a list of payment bindings names. -/
def boundSet (bindings : List (Option DependencyBinding)) : List PaymentMethod :=
  methodSet ((payments bindings).map Prod.fst)

theorem boundSet_perm (perm : a.Perm b) : boundSet a = boundSet b :=
  methodSet_perm ((perm.filterMap _).map _)

theorem boundMethods_eq_some {result : String × List PaymentMethod} :
    profile.boundMethods client bindings = some result ↔ Binds (profile.bindingUnits client) none [] bindings ∧
      lastUnit none bindings = some result.1 ∧ profile.acceptsMethods (boundSet bindings) = true ∧
        result.2 = boundSet bindings := by
  have reversed : methodSet ((payments bindings).map Prod.fst).reverse = boundSet bindings :=
    methodSet_perm (List.reverse_perm _)
  simp only [ProcessorProfile.boundMethods,Option.bind_eq_bind,Option.bind_eq_some_iff,bindMethods_iff]
  constructor
  · rintro ⟨⟨unit,seen⟩,⟨binds,shape⟩,bound,last,accepted⟩
    simp only [Prod.mk.injEq,List.append_nil] at shape
    obtain ⟨rfl,rfl⟩ := shape
    dsimp only at last accepted
    rw [reversed] at accepted
    split_ifs at accepted with accepts
    cases accepted
    exact ⟨binds,last,accepts,rfl⟩
  · rintro ⟨binds,last,accepts,same⟩
    refine ⟨_,⟨binds,rfl⟩,result.1,last,?_⟩
    rw [List.append_nil,reversed,if_pos accepts,← same]

theorem boundMethods_any {advertised : List PaymentMethod} :
    (profile.boundMethods client bindings).any (fun (_,methods) => methods == advertised) = true ↔
      Binds (profile.bindingUnits client) none [] bindings ∧ bindings ≠ [] ∧
        profile.acceptsMethods (boundSet bindings) = true ∧ boundSet bindings = advertised := by
  rw [Option.any_eq_true]
  constructor
  · rintro ⟨result,found,same⟩
    obtain ⟨binds,last,accepts,methods⟩ := boundMethods_eq_some.mp found
    refine ⟨binds,(isSome_lastUnit_iff binds).mp (by rw [last]; rfl),accepts,?_⟩
    rw [← methods]
    simpa using same
  · rintro ⟨binds,there,accepts,same⟩
    obtain ⟨unit,last⟩ := Option.isSome_iff_exists.mp ((isSome_lastUnit_iff binds).mpr there)
    exact ⟨(unit,boundSet bindings),boundMethods_eq_some.mpr ⟨binds,last,accepts,rfl⟩,by simp [same]⟩

/-- Whether the links of a component bind the methods does not depend on their order. -/
theorem boundMethods_perm (perm : a.Perm b) {advertised : List PaymentMethod}
    (bound : (profile.boundMethods client a).any (fun (_,methods) => methods == advertised) = true) :
    (profile.boundMethods client b).any (fun (_,methods) => methods == advertised) = true := by
  rw [boundMethods_any] at bound ⊢
  obtain ⟨binds,there,accepts,same⟩ := bound
  rw [← boundSet_perm perm]
  exact ⟨binds.perm perm,fun empty => there (by simpa [empty] using perm),accepts,same⟩

section
variable {c e : CellSpec}

theorem validateProcessorBindings_clean {i : Nat} {a : ComponentSpec}
    {implementation : String} {kind : ComponentKind} {advertised : List PaymentMethod} :
    validateProcessorBindings c i a profile implementation kind advertised = [] ↔
      (profile.boundMethods a.implementation ((outgoing c a .paymentBackend).map LinkSpec.binding)).any
          (fun (_,methods) => methods == advertised) = true ∧
        ∃ id, ∀ link ∈ outgoing c a .paymentBackend, link.to = id ∧
          ∃ target ∈ c.components, target.id = id ∧ target.kind = kind ∧ target.implementation = implementation := by
  unfold validateProcessorBindings
  simp only [issue_eq_nil,Bool.or_eq_false_iff,Bool.not_eq_false',List.all_eq_true,List.any_eq_true,Bool.and_eq_true,
    beq_iff_eq]
  refine and_congr_right fun _ => ?_
  cases found : outgoing c a .paymentBackend with
  | nil => simp
  | cons head rest =>
    constructor
    · intro all
      refine ⟨head.to,fun link member => ?_⟩
      obtain ⟨target,there,⟨⟨one,id⟩,right⟩,named⟩ := all link member
      have same : head.to = link.to := by simpa using one
      exact ⟨same.symm,target,there,id.trans same.symm,right,named⟩
    · rintro ⟨id,all⟩ link member
      obtain ⟨rfl,target,there,same,right,named⟩ := all link member
      obtain ⟨first,_⟩ := all head List.mem_cons_self
      exact ⟨target,there,⟨⟨by simp [first],same⟩,right⟩,named⟩

variable {a b : ComponentSpec}

theorem Rearranged.processorBindings (same : Rearranged c e) (alike : Alike a b) {i j : Nat}
    {profile : ProcessorProfile} {implementation : String} {kind : ComponentKind} {advertised : List PaymentMethod}
    (clean : validateProcessorBindings c i a profile implementation kind advertised = []) :
    validateProcessorBindings e j b profile implementation kind advertised = [] := by
  rw [validateProcessorBindings_clean] at clean ⊢
  have perm := same.outgoingPerm alike .paymentBackend
  obtain ⟨bound,id,all⟩ := clean
  rw [← alike.implementation]
  refine ⟨boundMethods_perm (perm.map _) bound,id,fun link member => ?_⟩
  obtain ⟨reached,target,there,known,right,named⟩ := all link (perm.mem_iff.mpr member)
  obtain ⟨target',there',pair⟩ := same.forth target there
  exact ⟨reached,target',there',pair.id.symm.trans known,pair.kind.symm.trans right,pair.implementation.symm.trans named⟩

/-- Whether a component is one that a mint's processor links may reach. -/
def isProcessor (target : ComponentSpec) : Bool :=
  target.kind == .paymentProcessor || (ProcessorProfile.forImplementation target.implementation).isSome

theorem Alike.isProcessor (alike : Alike a b) : isProcessor a = isProcessor b := by
  unfold Validation.isProcessor
  rw [alike.kind,alike.implementation]

variable {links : List LinkSpec} {α : Type} {unit : String} {claimed : List (PaymentMethod × String)}

theorem processorTarget_mem {target : ComponentSpec}
    (found : processorTarget c links = some target) :
    ∃ link ∈ links, target ∈ c.components ∧ target.id = link.to ∧ isProcessor target = true := by
  obtain ⟨link,member,here⟩ := List.exists_of_findSome?_eq_some found
  have holds := List.find?_some here
  simp only [Bool.and_eq_true,beq_iff_eq] at holds
  exact ⟨link,member,List.mem_of_find?_eq_some here,holds.1,holds.2⟩

theorem processorTarget_isSome {link : LinkSpec} {target : ComponentSpec}
    (member : link ∈ links) (there : target ∈ c.components) (id : target.id = link.to)
    (processor : isProcessor target = true) : ∃ first, processorTarget c links = some first := by
  cases found : processorTarget c links with
  | some first => exact ⟨first,rfl⟩
  | none =>
    have absent := List.findSome?_eq_none_iff.mp found link member
    have fails := List.find?_eq_none.mp absent target there
    rw [id,beq_self_eq_true,Bool.true_and] at fails
    exact absurd processor fails

theorem Rearranged.processor (same : Rearranged c e) (alike : Alike a b) {i j : Nat}
    (advertised : ∀ target ∈ c.components, ∀ profile,
      ProcessorProfile.forImplementation target.implementation = some profile →
        (profile.advertisedMethods target).isSome)
    (clean : validateProcessor c i a = []) : validateProcessor e j b = [] := by
  unfold validateProcessor at clean ⊢
  rw [← alike.implementation]
  by_cases ldk : a.implementation = ldkProcessor
  · rw [if_pos ldk] at clean ⊢
    have methods := alike.methods .ldkServer (by rw [ldk]; rfl)
    rw [← methods]
    cases found : ProcessorProfile.ldkServer.advertisedMethods a with
    | none => rfl
    | some set =>
      rw [found] at clean
      exact same.processorBindings alike clean
  rw [if_neg ldk] at clean ⊢
  by_cases mint : a.implementation = "cdk" ∨ a.implementation = "nutshell"
  · rw [if_pos mint] at clean ⊢
    cases found' : processorTarget e (outgoing e b .paymentBackend) with
    | none => rfl
    | some target' =>
      obtain ⟨link,member',there',id',processor'⟩ := processorTarget_mem found'
      obtain ⟨target,there,pair⟩ := same.back target' there'
      have member := (same.outgoingPerm alike .paymentBackend).mem_iff.mpr member'
      obtain ⟨first,found⟩ := processorTarget_isSome member there (pair.id.trans id') (pair.isProcessor.trans processor')
      rw [found] at clean
      dsimp only at clean ⊢
      -- The links all reach one component, so the first in either order is that one.
      cases profiled : ProcessorProfile.forImplementation first.implementation with
      | none =>
        rw [profiled] at clean
        cases clean
      | some profile =>
        rw [profiled] at clean
        dsimp only at clean
        obtain ⟨link₀,member₀,there₀,id₀,_⟩ := processorTarget_mem found
        obtain ⟨set,known⟩ := Option.isSome_iff_exists.mp (advertised first there₀ profile profiled)
        rw [known] at clean
        dsimp only at clean
        obtain ⟨_,id,all⟩ := validateProcessorBindings_clean.mp clean
        have one : target = first := by
          refine eq_of_id same.distinct there there₀ ?_
          rw [pair.id,id',id₀,(all link member).1,(all link₀ member₀).1]
        subst one
        rw [← pair.implementation,profiled]
        dsimp only
        rw [← pair.methods profile profiled,known]
        exact same.processorBindings alike clean
  · rw [if_neg mint]

theorem Rearranged.validProcessors (same : Rearranged c e)
    (advertised : ∀ target ∈ c.components, ∀ profile,
      ProcessorProfile.forImplementation target.implementation = some profile →
        (profile.advertisedMethods target).isSome)
    (clean : validateProcessorTopology c = []) : validateProcessorTopology e = [] :=
  same.enumerate (fun _ _ _ _ _ _ alike => same.processor alike advertised) clean

/-! ### CDK mints -/

/-- The backend, the method and the unit of a payment link. -/
def paymentLink (link : LinkSpec) : Option (String × PaymentMethod × String) :=
  match link.binding with
  | some (.payment method unit) => some (link.to,method,unit)
  | _ => none

/-- Two payment links of a mint agree on the unit of one backend and do not serve
    one method in one unit. -/
structure PaymentsApart (a b : String × PaymentMethod × String) : Prop where
  unit : a.1 = b.1 → a.2.2 = b.2.2
  tuple : a.2 ≠ b.2

theorem contains_eq_false_iff [BEq α] [LawfulBEq α] {list : List α} {x : α} :
    list.contains x = false ↔ x ∉ list := by
  rw [← Bool.not_eq_true,List.contains_iff_mem]

theorem any_ne_eq_false_iff {known : Option String} :
    known.any (fun bound => decide (bound ≠ unit)) = false ↔ ∀ bound, known = some bound → bound = unit := by
  cases known <;> simp

/-- The units once a link to `target` has been met. -/
def note (target unit : String) (units : List (String × String)) : List (String × String) :=
  if (units.lookup target).isSome then units else (target,unit) :: units

theorem lookup_noted {units : List (String × String)} {target : String}
    (first : ∀ bound, units.lookup target = some bound → bound = unit) :
    (note target unit units).lookup target = some unit ∧
      ∀ other bound, units.lookup other = some bound → (note target unit units).lookup other = some bound := by
  unfold note
  cases found : units.lookup target with
  | some bound =>
    rw [first bound found] at found
    simp [found]
  | none =>
    refine ⟨by simp,fun other bound met => ?_⟩
    have differ : other ≠ target := by
      rintro rfl
      rw [found] at met
      cases met
    rw [Option.isSome_none,if_neg (by simp),Entries.lookup_cons,if_neg differ]
    exact met

theorem lookup_of_noted {units : List (String × String)} {target other bound : String} (differ : target ≠ other)
    (met : (note target unit units).lookup other = some bound) : units.lookup other = some bound := by
  unfold note at met
  split_ifs at met
  · exact met
  · rwa [Entries.lookup_cons,if_neg (Ne.symm differ)] at met

/-- What the loop accepts after it has met `claimed` tuples and the `units`. -/
theorem validatePaymentLinks_clean {path : String}
    {units : List (String × String)} :
    validatePaymentLinks path claimed units links = [] ↔
      (∀ payment ∈ links.filterMap paymentLink,
        (∀ unit, units.lookup payment.1 = some unit → unit = payment.2.2) ∧ payment.2 ∉ claimed) ∧
      (links.filterMap paymentLink).Pairwise PaymentsApart := by
  induction links generalizing claimed units with
  | nil => simp [validatePaymentLinks]
  | cons link rest ih =>
    unfold validatePaymentLinks
    split
    · rename_i method unit bound
      have shape : (link :: rest).filterMap paymentLink = (link.to,method,unit) :: rest.filterMap paymentLink := by
        rw [List.filterMap_cons]
        simp [paymentLink,bound]
      rw [shape,List.pairwise_cons,List.forall_mem_cons]
      rw [List.append_eq_nil_iff,List.append_eq_nil_iff,issue_eq_nil,issue_eq_nil,ih,contains_eq_false_iff]
      constructor
      · rintro ⟨⟨known,fresh⟩,later,pairs⟩
        have first := any_ne_eq_false_iff.mp known
        have noted := lookup_noted first
        refine ⟨⟨⟨first,fresh⟩,fun payment member => ?_⟩,fun payment member => ?_,pairs⟩
        · refine ⟨fun unit' found => ?_,fun claimed => (later payment member).2 (List.mem_cons_of_mem _ claimed)⟩
          exact (later payment member).1 unit' (noted.2 _ _ found)
        · refine ⟨fun one => ?_,fun same => (later payment member).2 (same ▸ List.mem_cons_self)⟩
          exact (later payment member).1 unit (by rw [← one]; exact noted.1)
      · rintro ⟨⟨⟨first,fresh⟩,each⟩,apart,pairs⟩
        refine ⟨⟨any_ne_eq_false_iff.mpr first,fresh⟩,fun payment member => ⟨fun unit' found => ?_,?_⟩,pairs⟩
        · by_cases one : link.to = payment.1
          · have noted : (note link.to unit units).lookup link.to = some unit := (lookup_noted first).1
            rw [← one] at found
            cases noted.symm.trans found
            exact (apart payment member).unit one
          · exact (each payment member).1 unit' (lookup_of_noted one found)
        · intro claimed
          obtain same | before := List.mem_cons.mp claimed
          · exact (apart payment member).tuple same.symm
          · exact (each payment member).2 before
    · rename_i other
      have none : paymentLink link = none := by
        unfold paymentLink
        split
        · rename_i method unit bound
          exact absurd bound (other method unit)
        · rfl
      rw [List.filterMap_cons_none none,ih]

theorem PaymentsApart.symm {a b : String × PaymentMethod × String} (apart : PaymentsApart a b) : PaymentsApart b a :=
  ⟨fun one => (apart.unit one.symm).symm,apart.tuple.symm⟩

theorem validatePaymentLinks_perm {path path' : String}
    {a b : List LinkSpec} (perm : a.Perm b) (clean : validatePaymentLinks path claimed [] a = []) :
    validatePaymentLinks path' claimed [] b = [] := by
  rw [validatePaymentLinks_clean] at clean ⊢
  have paid := perm.filterMap paymentLink
  exact ⟨fun payment member => clean.1 payment (paid.mem_iff.mpr member),
    paid.pairwise clean.2 fun pair => pair.symm⟩

section
variable (alike : Alike a b) (cdk : a.implementation = "cdk")
include alike cdk

theorem Alike.embedsLdk :
    embedsLdk a = embedsLdk b := by
  simp only [Validation.embedsLdk,alike.lightning cdk]

theorem Alike.embedsBdk :
    embedsBdk a = embedsBdk b := by
  simp only [Validation.embedsBdk,alike.onchain cdk]

theorem Alike.embeddedPaymentTuples :
    embeddedPaymentTuples a = embeddedPaymentTuples b := by
  simp only [Validation.embeddedPaymentTuples,alike.embedsLdk cdk,alike.embedsBdk cdk,alike.unit cdk]
end

theorem isEmpty_perm {a b : List α} (perm : a.Perm b) : a.isEmpty = b.isEmpty := by
  rw [Bool.eq_iff_iff,List.isEmpty_iff_length_eq_zero,List.isEmpty_iff_length_eq_zero,perm.length_eq]

theorem Rearranged.authStore (same : Rearranged c e) (alike : Alike a b) {path path' : String}
    (clean : validateAuthStore c path a = []) : validateAuthStore e path' b = [] := by
  unfold validateAuthStore at clean ⊢
  simp only [any_perm (same.outgoingPerm alike .databaseBackend),
    isEmpty_perm (same.outgoingPerm alike .authenticationBackend)] at clean
  dsimp only at clean ⊢
  split_ifs at clean ⊢
  rw [issue_eq_nil] at clean ⊢
  exact clean

theorem Rearranged.cdk (same : Rearranged c e) (alike : Alike a b) {i j : Nat}
    (clean : validateCdk c i a = []) : validateCdk e j b = [] := by
  unfold validateCdk at clean ⊢
  rw [← alike.implementation]
  by_cases cdk : a.implementation = "cdk"
  · rw [if_neg (not_not.mpr cdk)] at clean ⊢
    have payments := same.outgoingPerm alike .paymentBackend
    have chains := (same.outgoingPerm alike .chainBackend).length_eq
    unfold validateEmbeddedChain at clean ⊢
    simp only [List.append_eq_nil_iff,issue_eq_nil] at clean ⊢
    rw [← alike.unit cdk,← alike.embedsLdk cdk,← alike.embedsBdk cdk,← alike.embeddedPaymentTuples cdk,← chains,
      ← isEmpty_perm payments]
    obtain ⟨⟨⟨⟨unit,chain⟩,links⟩,path⟩,store⟩ := clean
    exact ⟨⟨⟨⟨unit,chain⟩,validatePaymentLinks_perm payments links⟩,path⟩,same.authStore alike store⟩
  · rw [if_pos cdk]

theorem Rearranged.validCdk (same : Rearranged c e) (clean : validateCdkTopology c = []) :
    validateCdkTopology e = [] :=
  same.enumerate (fun _ _ _ _ _ _ alike => same.cdk alike) clean

/-! ### Policies -/

theorem Rearranged.validOverride (same : Rearranged c e) (clean : validatePaymentOverride c = []) :
    validatePaymentOverride e = [] := by
  unfold validatePaymentOverride at clean ⊢
  rw [← same.policy]
  by_cases allows : c.policy.allow.contains .mintQuotePaymentOverride = true
  · rw [if_pos allows]
  rw [if_neg allows] at clean ⊢
  refine same.enumerate (fun i j a b _ _ alike here => ?_) clean
  unfold validateOverride at here ⊢
  rw [issue_eq_nil,decide_eq_false_iff_not,not_and] at here ⊢
  intro cdk allowed
  rw [← alike.implementation] at cdk
  exact here cdk ((alike.payment cdk).mpr allowed)

theorem Alike.overrideKeys (alike : Alike a b) : overrideKeys a = overrideKeys b := by
  unfold Validation.overrideKeys
  rw [← alike.implementation]
  cases found : overrides a.implementation with
  | none => rfl
  | some o =>
    simp only [Option.bind_some]
    rw [alike.native o found]

theorem Rearranged.validNative (same : Rearranged c e) (clean : validateNativeSettings c = []) :
    validateNativeSettings e = [] := by
  refine same.enumerate (fun i j a b _ _ alike here => ?_) clean
  unfold validateNative at here ⊢
  rw [← alike.implementation]
  cases found : overrides a.implementation with
  | none => rfl
  | some o =>
    rw [found] at here
    dsimp only at here ⊢
    rw [← alike.native o found]
    cases set : a.get o.field with
    | none => rfl
    | some value =>
      rw [set] at here
      simp only [List.append_eq_nil_iff,issue_eq_nil] at here ⊢
      rw [← same.policy]
      refine ⟨here.1,?_⟩
      have shape := here.2
      cases wrong : o.shape value with
      | some message =>
        rw [wrong] at shape
        cases shape
      | none =>
        rw [wrong] at shape
        simp only [List.flatMap_eq_nil_iff] at shape ⊢
        intro key member
        rw [← alike.overrideKeys] at member
        have free := shape key member
        cases reserved : o.reservedBy key with
        | none => rfl
        | some field =>
          rw [reserved] at free
          cases free

/-! ### The whole cell -/

theorem Rearranged.validLimits (same : Rearranged c e) (clean : validateLimits c = []) : validateLimits e = [] := by
  unfold validateLimits at clean ⊢
  rw [← same.policy,← same.count,← same.links.length_eq]
  exact clean

/-- What passes the checks passes them rearranged, where the configurations fit. -/
theorem CellClean.rearranged (same : Rearranged c e) (clean : CellClean c)
    (advertised : ∀ target ∈ c.components, ∀ profile,
      ProcessorProfile.forImplementation target.implementation = some profile →
        (profile.advertisedMethods target).isSome)
    (fits : ∀ b ∈ e.components, exceedsPolicyLimit (configBytes b) e.policy.limits.maxConfigBytes = false) :
    CellClean e where
  version := same.apiVersion.symm.trans clean.version
  name := same.name ▸ clean.name
  limits := same.validLimits clean.limits
  components := by
    refine validateComponents_clean.mpr ⟨fun b member => ?_,same.distinct'⟩
    obtain ⟨a,there,alike⟩ := same.back b member
    have here := (validateComponents_clean.mp clean.components).1 a there
    exact ⟨alike.id ▸ here.id,alike.implementation ▸ here.implementation,alike.configVersion ▸ here.configVersion,
      fits b member⟩
  links := same.validLinks clean.links
  authentication := same.validAuthentication clean.authentication
  processors := same.validProcessors advertised clean.processors
  bark := same.validBark clean.bark
  spark := same.validSpark clean.spark
  cdk := same.validCdk clean.cdk
  override := same.validOverride clean.override
  native := same.validNative clean.native

end

end Proofstorm.Validation
