import Proofstorm.Rendering.Cdk

/-!
The payment paths that a CDK mint is accepted with. Its payment links reach one
processor and bind exactly what that advertises, or there is a single one to a
Lightning node, or there is none; beside them it embeds backends.
-/
namespace Proofstorm.Rendering
open Proofstorm.Core Validation Publication Plans

/-! ### What the releases of CDK bind -/

/-- Through links: BOLT11 of a node, and every method of a processor. -/
def cdkPaymentBindings : List PaymentTuple :=
  [(.bolt11,"sat","lnd"),(.bolt11,"sat","cln")] ++
    [ProcessorProfile.ldkServer,.bark,.spark].flatMap fun profile =>
      profile.supportedMethods.map fun method => (method,"sat",profile.implementation)

def cdkEmbeddedBindings : List PaymentTuple :=
  [(.bolt11,"sat","ldk-node"),(.bolt12,"sat","ldk-node"),(.onchain,"sat","bdk")]

/-- The releases of CDK in a catalog, built in or candidates, differ in the versions
    they bind and not in the tuples. -/
structure OffersCdk (catalog : CatalogResponse) : Prop where
  linked : ∀ entry ∈ catalog, entry.id = "cdk" → ∀ support ∈ entry.supportMatrix.paymentBindings,
    (support.method,support.unit,support.backend.implementation) ∈ cdkPaymentBindings
  embedded : ∀ entry ∈ catalog, entry.id = "cdk" → ∀ support ∈ entry.supportMatrix.embeddedPaymentBindings,
    (support.method,support.unit,support.backend) ∈ cdkEmbeddedBindings

theorem profile_of_binding {method : PaymentMethod} {unit implementation : String}
    (bound : (method,unit,implementation) ∈ cdkPaymentBindings) : unit = "sat" ∧
      (method = .bolt11 ∧ (implementation = "lnd" ∨ implementation = "cln") ∨
        (ProcessorProfile.forImplementation implementation).isSome = true) := by
  have each : ∀ tuple ∈ cdkPaymentBindings, tuple.2.1 = "sat" ∧
      (tuple.1 = .bolt11 ∧ (tuple.2.2 = "lnd" ∨ tuple.2.2 = "cln") ∨
        (ProcessorProfile.forImplementation tuple.2.2).isSome = true) := by
    decide +kernel
  exact each _ bound

theorem forImplementation_eq_some {implementation : String} {profile : ProcessorProfile} :
    ProcessorProfile.forImplementation implementation = some profile ↔ implementation = profile.implementation := by
  constructor
  · intro found
    unfold ProcessorProfile.forImplementation at found
    split_ifs at found with ldk bark spark <;> cases found <;> assumption
  · rintro rfl
    cases profile <;> decide +kernel

/-! ### Accepted mints -/

/-- What acceptance establishes of a CDK mint. -/
structure AcceptedMint (cell : CellSpec) (mint : ComponentSpec) : Prop where
  member : mint ∈ cell.components
  implementation : mint.implementation = "cdk"
  distinct : cell.ids.Nodup
  links : ∀ link ∈ cell.links, LinkClean cell link
  processor : ∃ index, validateProcessor cell index mint = []
  cdk : ∃ index, validateCdk cell index mint = []
  advertised : ∀ target ∈ cell.components, ∀ profile,
    ProcessorProfile.forImplementation target.implementation = some profile → (profile.advertisedMethods target).isSome
  linked : ∀ link ∈ outgoing cell mint .paymentBackend, ∃ target ∈ cell.components, target.id = link.to ∧
    ∃ method unit, link.binding = some (.payment method unit) ∧ (method,unit,target.implementation) ∈ cdkPaymentBindings
  embedded : ∀ tuple ∈ embeddedPaymentTuples mint, tuple ∈ cdkEmbeddedBindings

/-- The payment links of a mint, as they are accepted. -/
inductive LinkedPath (cell : CellSpec) (mint : ComponentSpec) : Prop
  | processor (target : ComponentSpec) (profile : ProcessorProfile) (advertised : List PaymentMethod)
      (there : target ∈ cell.components) (kind : target.kind = .paymentProcessor)
      (implementation : target.implementation = profile.implementation)
      (methods : profile.advertisedMethods target = some advertised) (linked : outgoing cell mint .paymentBackend ≠ [])
      (reached : ∀ link ∈ outgoing cell mint .paymentBackend, link.to = target.id)
      (bound : (profile.boundMethods "cdk" ((outgoing cell mint .paymentBackend).map LinkSpec.binding)).any
        (fun (_,methods) => methods == advertised) = true)
  | node (link : LinkSpec) (target : ComponentSpec) (linked : outgoing cell mint .paymentBackend = [link])
      (there : target ∈ cell.components) (reached : target.id = link.to)
      (implementation : target.implementation = "lnd" ∨ target.implementation = "cln")
      (direct : isProcessor target = false) (bound : link.binding = some (.payment .bolt11 "sat"))
      (alone : embedsLdk mint = false)
  | unlinked (linked : outgoing cell mint .paymentBackend = [])

section
variable {cell : CellSpec} {mint : ComponentSpec} (accepted : AcceptedMint cell mint)
include accepted

theorem AcceptedMint.unclaimed : ∃ path, validatePaymentLinks path
    ((embeddedPaymentTuples mint).map fun (method,unit,_) => (method,unit)) [] (outgoing cell mint .paymentBackend) = [] ∧
      ¬ (outgoing cell mint .paymentBackend = [] ∧ embedsLdk mint = false ∧ embedsBdk mint = false) := by
  obtain ⟨index,clean⟩ := accepted.cdk
  unfold validateCdk at clean
  rw [if_neg (not_not.mpr accepted.implementation)] at clean
  simp only [List.append_eq_nil_iff,issue_eq_nil] at clean
  obtain ⟨⟨⟨_,payments⟩,path⟩,_⟩ := clean
  refine ⟨_,payments,?_⟩
  rintro ⟨none,ldk,bdk⟩
  rw [none,ldk,bdk] at path
  cases path

/-- Embedded backends reach one chain. -/
theorem AcceptedMint.chain (embeds : (embedsLdk mint || embedsBdk mint) = true) :
    ∃ link, outgoing cell mint .chainBackend = [link] := by
  obtain ⟨index,clean⟩ := accepted.cdk
  unfold validateCdk validateEmbeddedChain at clean
  rw [if_neg (not_not.mpr accepted.implementation)] at clean
  simp only [List.append_eq_nil_iff,issue_eq_nil,embeds,Bool.true_and,decide_eq_false_iff_not,not_not] at clean
  exact List.length_eq_one_iff.mp clean.1.1.1.2.1

/-- Embedded LDK Node serves sat. -/
theorem AcceptedMint.embeddedUnit (embeds : embedsLdk mint = true) :
    configured mint "embedded_lightning_unit" "sat" = "sat" := by
  have listed := accepted.embedded (.bolt11,configured mint "embedded_lightning_unit" "sat","ldk-node") (by
    simp [embeddedPaymentTuples,embeds])
  simpa [cdkEmbeddedBindings] using listed

/-- A mint whose links reach a processor binds what it advertises, and links to nothing else. -/
theorem AcceptedMint.path_of_processor {link : LinkSpec} {target : ComponentSpec}
    (member : link ∈ outgoing cell mint .paymentBackend) (there : target ∈ cell.components)
    (reached : target.id = link.to) (processor : isProcessor target = true) : LinkedPath cell mint := by
  obtain ⟨index,clean⟩ := accepted.processor
  obtain ⟨first,found⟩ := processorTarget_isSome member there reached processor
  have other : ¬ "cdk" = ldkProcessor := by decide
  unfold validateProcessor at clean
  rw [accepted.implementation,if_neg other,if_pos (.inl rfl),found] at clean
  dsimp only at clean
  cases profiled : ProcessorProfile.forImplementation first.implementation with
  | none =>
    rw [profiled] at clean
    cases clean
  | some profile =>
    rw [profiled] at clean
    dsimp only at clean
    obtain ⟨link₀,member₀,there₀,reached₀,_⟩ := processorTarget_mem found
    obtain ⟨set,known⟩ := Option.isSome_iff_exists.mp (accepted.advertised first there₀ profile profiled)
    rw [known] at clean
    dsimp only at clean
    obtain ⟨bound,id,all⟩ := validateProcessorBindings_clean.mp clean
    rw [accepted.implementation] at bound
    obtain ⟨rfl,target',there',named,kind,implementation⟩ := all link₀ member₀
    obtain rfl := eq_of_id accepted.distinct there' there₀ (named.trans reached₀.symm)
    exact .processor target' profile set there' kind implementation known (List.ne_nil_of_mem member)
      (fun link member => (all link member).1.trans named.symm) bound

theorem AcceptedMint.linkedPath : LinkedPath cell mint := by
  by_cases processed : ∃ link ∈ outgoing cell mint .paymentBackend, ∃ target ∈ cell.components,
      target.id = link.to ∧ isProcessor target = true
  · obtain ⟨link,member,target,there,reached,processor⟩ := processed
    exact accepted.path_of_processor member there reached processor
  push Not at processed
  -- Every link that is left is one to a node, for `bolt11` in `sat`.
  have direct : ∀ link ∈ outgoing cell mint .paymentBackend, link.binding = some (.payment .bolt11 "sat") ∧
      ∃ target ∈ cell.components, target.id = link.to ∧ isProcessor target = false ∧
        (target.implementation = "lnd" ∨ target.implementation = "cln") := by
    intro link member
    obtain ⟨target,there,reached,method,unit,bound,offered⟩ := accepted.linked link member
    have other := Bool.eq_false_iff.mpr (processed link member target there reached)
    obtain ⟨rfl,⟨rfl,named⟩ | profiled⟩ := profile_of_binding offered
    · exact ⟨bound,target,there,reached,other,named⟩
    · simp [isProcessor,profiled] at other
  obtain ⟨path,clean,_⟩ := accepted.unclaimed
  obtain ⟨free,apart⟩ := validatePaymentLinks_clean.mp clean
  have paid : ∀ link ∈ outgoing cell mint .paymentBackend, paymentLink link = some (link.to,.bolt11,"sat") := by
    intro link member
    simp [paymentLink,(direct link member).1]
  cases links : outgoing cell mint .paymentBackend with
  | nil => exact .unlinked links
  | cons link rest =>
    rw [links] at direct free apart paid
    obtain ⟨bound,target,there,reached,other,named⟩ := direct link List.mem_cons_self
    have first := paid link List.mem_cons_self
    have alone : embedsLdk mint = false := by
      by_contra embeds
      have embeds : embedsLdk mint = true := by simpa using embeds
      refine (free (link.to,.bolt11,"sat") (List.mem_filterMap.mpr ⟨link,List.mem_cons_self,first⟩)).2 ?_
      simp [embeddedPaymentTuples,embeds,accepted.embeddedUnit embeds]
    cases rest with
    | nil => exact .node link target links there reached named other bound alone
    | cons second others =>
      rw [List.filterMap_cons_some first,List.filterMap_cons_some (paid second (by simp)),List.pairwise_cons] at apart
      exact absurd rfl (apart.1 _ List.mem_cons_self).tuple

end

/-! ### Published mints -/

theorem binding_of_support {componentId : String} {entry target : CatalogEntry} {link : LinkSpec}
    (payment : link.kind = .paymentBackend) (compatible : requireCompatibleDependency componentId entry link target = .ok ()) :
    ∃ method unit, link.binding = some (.payment method unit) ∧ ∃ support ∈ entry.supportMatrix.paymentBindings,
      (support.method,support.unit,support.backend.implementation) = (method,unit,target.id) := by
  simp only [requireCompatibleDependency,bind_ok,requireBindingSupport,payment] at compatible
  obtain ⟨_,_,supported⟩ := compatible
  split at supported
  · rename_i method unit bound
    rw [ensure_ok,List.any_eq_true] at supported
    obtain ⟨support,listed,same⟩ := supported
    simp only [Bool.and_eq_true,beq_iff_eq] at same
    exact ⟨method,unit,bound,support,listed,by rw [same.1.1.1,same.1.1.2,same.1.2]⟩
  · cases supported

theorem embedded_of_support {mint : ComponentSpec} {entry : CatalogEntry} (cdk : mint.implementation = "cdk")
    (supported : requireSupportedEmbeddedBindings mint entry = .ok ()) :
    ∀ tuple ∈ embeddedPaymentTuples mint, ∃ support ∈ entry.supportMatrix.embeddedPaymentBindings,
      (support.method,support.unit,support.backend) = tuple := by
  intro tuple member
  unfold requireSupportedEmbeddedBindings at supported
  rw [if_neg (not_not.mpr cdk)] at supported
  split at supported
  · rename_i none
    have listed := List.find?_eq_none.mp none tuple member
    exact ⟨⟨tuple.1,tuple.2.1,tuple.2.2⟩,by simpa using listed,rfl⟩
  · cases supported

/-- The mints of an effective cell that passes the checks of its links are accepted ones. -/
theorem acceptedMint {digestJson : Json → String} {catalog : CatalogResponse} {cell : CellSpec}
    {lock : Publication.ResolvedLock} (offers : OffersCdk catalog) (distinct : cell.ids.Nodup)
    (links : validateLinks cell = []) (processors : validateProcessorTopology cell = [])
    (mints : validateCdkTopology cell = []) (locked : lockOf digestJson cell catalog = .ok lock)
    (resolved : resolveEffectiveCell cell catalog = .ok cell) {mint : ComponentSpec} (member : mint ∈ cell.components)
    (cdk : mint.implementation = "cdk") : AcceptedMint cell mint := by
  obtain ⟨index,bound,rfl⟩ := List.getElem_of_mem member
  have here := List.getElem?_eq_getElem bound
  obtain ⟨entry,offered,named,embedded,linked⟩ := supported_of_locked locked member
  constructor
  · exact member
  · exact cdk
  · exact distinct
  · exact (validateLinks_clean.mp links).1
  · exact ⟨index,enumerate_eq_nil.mp processors index _ here⟩
  · exact ⟨index,enumerate_eq_nil.mp mints index _ here⟩
  · exact resolved_advertised resolved
  · intro link outgoing
    obtain ⟨there,source,kind⟩ : link ∈ cell.links ∧ link.from = cell.components[index].id ∧
        link.kind = .paymentBackend := by
      simpa [Validation.outgoing] using outgoing
    obtain ⟨target,known,reached,targetEntry,is,compatible⟩ := linked link (by
      simp [relevantLinks,there,source,kind,isRolloutRelevantLink,LinkKind.isBackend])
    obtain ⟨method,unit,payment,support,listed,same⟩ := binding_of_support kind compatible
    have offer := offers.linked entry offered (named.trans cdk) support listed
    rw [same,is] at offer
    exact ⟨target,known,reached,method,unit,payment,offer⟩
  · intro tuple served
    obtain ⟨support,listed,rfl⟩ := embedded_of_support cdk embedded tuple served
    exact offers.embedded entry offered (named.trans cdk) support listed

end Proofstorm.Rendering
