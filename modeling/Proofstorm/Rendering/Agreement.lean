import Proofstorm.Rendering.Payments

/-!
What a CDK mint is rendered with is what it was accepted with, unless it embeds LDK
Node beside a linked processor: then the processor's section takes the place of LDK
Node's, whose methods acceptance had counted.
-/
namespace Proofstorm.Rendering
open Proofstorm.Core Validation Publication Plans

/-! ### What a mint is accepted with -/

section
variable {cell : CellSpec} {mint : ComponentSpec} (accepted : AcceptedMint cell mint)
include accepted

theorem AcceptedMint.embeddedTuples : embeddedPaymentTuples mint = ldkTuples mint ++ onchainTuples mint := by
  unfold embeddedPaymentTuples ldkTuples onchainTuples
  by_cases embeds : embedsLdk mint = true
  · simp only [accepted.embeddedUnit embeds]
  · simp only [embeds,Bool.false_eq_true,if_false]

/-- The links to a processor bind exactly what it advertises. -/
theorem AcceptedMint.linked_processor {target : ComponentSpec} {profile : ProcessorProfile}
    {advertised : List PaymentMethod} (there : target ∈ cell.components)
    (reached : ∀ link ∈ outgoing cell mint .paymentBackend, link.to = target.id)
    (bound : (profile.boundMethods "cdk" ((outgoing cell mint .paymentBackend).map LinkSpec.binding)).any
      (fun (_,methods) => methods == advertised) = true) {tuple : PaymentTuple} :
    tuple ∈ linkedTuples cell mint ↔ tuple ∈ processorTuples target advertised := by
  obtain ⟨binds,_,_,same⟩ := boundMethods_eq_some.mp (boundMethods_cdk bound)
  have found : ∀ link ∈ outgoing cell mint .paymentBackend, cell.components.find? (·.id == link.to) = some target :=
    fun link member => (find_eq_some accepted.distinct fun _ holds => eq_of_beq holds).mpr
      ⟨there,by rw [reached link member,beq_self_eq_true]⟩
  have mem : ∀ method, method ∈ advertised ↔ ∃ unit, (method,unit) ∈
      payments ((outgoing cell mint .paymentBackend).map LinkSpec.binding) := by
    intro method
    rw [show advertised = _ from same,boundSet,mem_methodSet,List.mem_map]
    exact ⟨fun ⟨pair,member,is⟩ => ⟨pair.2,by rw [← is]; exact member⟩,fun ⟨unit,member⟩ => ⟨_,member,rfl⟩⟩
  rw [linkedTuples,processorTuples,List.mem_filterMap,List.mem_map]
  constructor
  · rintro ⟨link,member,read⟩
    split at read
    · rename_i method unit target' payment here
      rw [found link member,Option.some.injEq] at here
      subst here
      have paid : (method,unit) ∈ payments ((outgoing cell mint .paymentBackend).map LinkSpec.binding) :=
        List.mem_filterMap.mpr ⟨link.binding,List.mem_map_of_mem member,by rw [payment]; rfl⟩
      have sat := binds.supported _ paid
      rw [bindingUnits_cdk,List.mem_singleton] at sat
      obtain rfl : unit = "sat" := sat
      exact ⟨method,(mem method).mpr ⟨_,paid⟩,Option.some.inj read⟩
    · cases read
  · rintro ⟨method,listed,rfl⟩
    obtain ⟨unit,paid⟩ := (mem method).mp listed
    have sat := binds.supported _ paid
    rw [bindingUnits_cdk,List.mem_singleton] at sat
    obtain rfl : unit = "sat" := sat
    obtain ⟨binding,listed,read⟩ := List.mem_filterMap.mp paid
    obtain ⟨link,member,rfl⟩ := List.mem_map.mp listed
    have payment : link.binding = some (.payment method "sat") := by
      unfold paymentOf at read
      split at read
      · rename_i bound
        cases read
        exact bound
      · cases read
    exact ⟨link,member,by rw [payment,found link member]⟩

theorem AcceptedMint.linked_node {link : LinkSpec} {target : ComponentSpec} (node : NodeLink cell mint link target) :
    linkedTuples cell mint = [(.bolt11,"sat",target.implementation)] := by
  have found : cell.components.find? (·.id == link.to) = some target :=
    (find_eq_some accepted.distinct fun _ holds => eq_of_beq holds).mpr
      ⟨node.there,by rw [node.reached,beq_self_eq_true]⟩
  simp [linkedTuples,node.linked,node.bound,found]

end

/-! ### Agreement -/

theorem ldk_not_served {target : ComponentSpec} {profile : ProcessorProfile} {advertised : List PaymentMethod}
    (implementation : target.implementation = profile.implementation) (mint : ComponentSpec) :
    (.bolt11,"sat","ldk-node") ∉ processorTuples target advertised ++ onchainTuples mint := by
  intro served
  obtain processor | onchain := List.mem_append.mp served
  · obtain ⟨method,_,same⟩ := List.mem_map.mp processor
    rw [Prod.mk.injEq,Prod.mk.injEq,implementation] at same
    have named := same.2.2
    revert named
    cases profile <;> decide
  · unfold onchainTuples at onchain
    split_ifs at onchain
    · simp at onchain
    · cases onchain

/-- A mint of an effective cell is rendered, with what it was accepted with unless LDK
    Node stands beside payment links. -/
theorem MintPlan.agrees {cell : CellSpec} {mint : ComponentSpec} {config : CdkMintConfig} {plan : ComponentPlanContract}
    (planned : MintPlan cell mint config plan) (accepted : AcceptedMint cell mint) :
    ∃ sections, renderCdkComponent plan = .ok sections ∧
      ((∀ tuple, tuple ∈ sections.served cell ↔ tuple ∈ acceptedTuples cell mint) ↔
        ¬ (embedsLdk mint = true ∧ outgoing cell mint .paymentBackend ≠ [])) := by
  cases accepted.linkedPath with
  | processor target profile advertised there kind implementation methods linked reached bound =>
    obtain ⟨sections,rendered,served⟩ := planned.rendered_processor accepted there kind implementation methods linked
      reached bound
    refine ⟨sections,rendered,?_⟩
    simp only [acceptedTuples,accepted.embeddedTuples,List.mem_append,accepted.linked_processor there reached bound,
      ← List.append_assoc,served]
    by_cases embeds : embedsLdk mint = true
    · refine iff_of_false (fun agree => ?_) fun apart => apart ⟨embeds,linked⟩
      have ldk := (agree (.bolt11,"sat","ldk-node")).mpr (.inl (.inr (by simp [ldkTuples,embeds])))
      exact ldk_not_served implementation mint (List.mem_append.mpr ldk)
    · refine iff_of_true (fun tuple => ?_) fun both => embeds both.1
      simp [ldkTuples,embeds]
  | node link target linked there reached implementation direct bound alone =>
    have node : NodeLink cell mint link target := ⟨linked,there,reached,implementation,direct,bound⟩
    obtain ⟨sections,rendered,served⟩ := planned.rendered_node accepted node alone
    refine ⟨sections,rendered,iff_of_true (fun tuple => ?_) fun both => by simp [alone] at both⟩
    rw [served,acceptedTuples,accepted.embeddedTuples,accepted.linked_node node]
    simp [ldkTuples,alone]
  | unlinked linked =>
    obtain ⟨sections,rendered,served⟩ := planned.rendered_unlinked accepted linked
    refine ⟨sections,rendered,iff_of_true (fun tuple => ?_) fun both => both.2 linked⟩
    rw [served,acceptedTuples,accepted.embeddedTuples]
    simp [linkedTuples,linked]

section
variable {cell effective : CellSpec} (same : Rearranged cell effective)
include same

/-- What a section serves is read alike off an authored cell and its effective one. -/
theorem served_rearranged (sections : PaymentSections) : sections.served cell = sections.served effective := by
  have payment : sections.payment.served cell = sections.payment.served effective := by
    cases sections.payment with
    | grpcProcessor unit limits address port =>
      have pair := same.find address (p := (·.id == address)) (fun _ holds => eq_of_beq holds) fun _ _ alike => by
        rw [alike.id]
      simp only [PaymentSection.served]
      revert pair
      generalize cell.components.find? (·.id == address) = left
      generalize effective.components.find? (·.id == address) = right
      intro pair
      cases pair with
      | none => rfl
      | some alike =>
        dsimp only
        rw [← alike.implementation]
        split
        · rename_i profile profiled
          rw [alike.methods profile profiled]
        · rfl
    | lnd | cln | ldkNode | none => rfl
  rw [PaymentSections.served,payment,PaymentSections.served]

/-- So are the tuples that a mint is accepted with. -/
theorem acceptedTuples_rearranged {a b : ComponentSpec} (alike : Alike a b) (cdk : a.implementation = "cdk")
    {tuple : PaymentTuple} : tuple ∈ acceptedTuples cell a ↔ tuple ∈ acceptedTuples effective b := by
  have linked : tuple ∈ linkedTuples cell a ↔ tuple ∈ linkedTuples effective b := by
    unfold linkedTuples
    rw [((same.outgoingPerm alike .paymentBackend).filterMap _).mem_iff,List.mem_filterMap,List.mem_filterMap]
    refine exists_congr fun link => and_congr_right fun _ => ?_
    have pair := same.find link.to (p := (·.id == link.to)) (fun _ holds => eq_of_beq holds) fun _ _ alike => by
      rw [alike.id]
    revert pair
    generalize cell.components.find? (·.id == link.to) = left
    generalize effective.components.find? (·.id == link.to) = right
    intro pair
    cases pair with
    | none => exact Iff.rfl
    | some alike =>
      cases link.binding with
      | none => exact Iff.rfl
      | some binding =>
        cases binding with
        | payment method unit =>
          dsimp only
          rw [alike.implementation]
        | chain | ark | spark | database | authentication => exact Iff.rfl
  rw [acceptedTuples,acceptedTuples,List.mem_append,List.mem_append,linked,alike.embeddedPaymentTuples cdk]

end

/-- Every CDK mint of an accepted cell is rendered, with exactly what it was accepted
    with if and only if it does not embed LDK Node beside payment links. -/
theorem rendered_iff_accepted {digestJson : Json → String} {catalog : CatalogResponse} {cell : CellSpec}
    {revision : String} {plans : List ComponentPlanContract} (offers : OffersCdk catalog)
    (mapped : ∀ component ∈ cell.components, Mapped component) (runs : RunsBy digestJson catalog cell revision plans)
    {mint : ComponentSpec} (member : mint ∈ cell.components) (cdk : mint.implementation = "cdk")
    {plan : ComponentPlanContract} (listed : plan ∈ plans) (named : plan.componentId = mint.id) :
    ∃ sections, renderCdkComponent plan = .ok sections ∧
      ((∀ tuple, tuple ∈ sections.served cell ↔ tuple ∈ acceptedTuples cell mint) ↔
        ¬ (embedsLdk mint = true ∧ outgoing cell mint .paymentBackend ≠ [])) := by
  obtain ⟨lock,effective,locked,resolved,compiled⟩ := runs
  obtain ⟨valid,effective',resolved',locked⟩ := resolveLock_ok.mp locked
  obtain rfl : effective = effective' := Except.ok.inj (resolved.symm.trans resolved')
  have clean := validateCell_valid.mp valid
  have same := effective_rearranged clean mapped resolved
  have links := same.validLinks clean.links
  obtain ⟨_,componentOf,_⟩ := compileComponentPlans_ok compiled
  obtain ⟨component,there,targets,made⟩ := componentOf plan listed
  obtain ⟨authored,member',alike⟩ := same.back component there
  obtain rfl : authored = mint :=
    eq_of_id same.distinct member' member (alike.id.trans (made.componentId.symm.trans named))
  have cdk' : component.implementation = "cdk" := alike.implementation.symm.trans cdk
  obtain ⟨config,planned⟩ := mintPlan (effective_resolves mapped resolved) same.distinct' links locked there cdk' made
  have accepted := acceptedMint offers same.distinct' links
    (same.validProcessors (resolved_advertised resolved) clean.processors) (same.validCdk clean.cdk) locked
    (effective_again mapped resolved) there cdk'
  obtain ⟨sections,rendered,agrees⟩ := planned.agrees accepted
  refine ⟨sections,rendered,?_⟩
  simp only [served_rearranged same,acceptedTuples_rearranged same alike cdk,agrees,alike.embedsLdk cdk]
  have payments := same.outgoingPerm alike .paymentBackend
  rw [not_iff_not,and_congr_right_iff]
  exact fun _ => not_congr ⟨fun none => (none ▸ payments).eq_nil,fun none => (none ▸ payments.symm).eq_nil⟩

/-! ### A mint beside a Bark processor -/

def arkCatalog : CatalogResponse :=
  [catalogEntry bitcoinCore "31.1"
      "proofstorm-registry.localhost:5000/bitcoin-core@sha256:b3faffac8d3414faf57df61889c354d15fb2851782c2002251ea8df5be358ad6"
      "sha256:bitcoin-core-schema" "sha256:bitcoin-core-source" [.nativeCli,.regtest,.persistentState] [] ⟨[],[],[]⟩
      [.cell,.workspace],
    catalogEntry postgresql "17.11"
      "docker.io/library/postgres@sha256:18cfe3ef5e6815560c98237d6216d1e5119702fb0f3894c8785dd58b8bbe5d73"
      "sha256:postgresql-schema" "sha256:postgresql-source" [.nativeCli,.persistentState,.postgres] [] ⟨[],[],[]⟩
      [.cell],
    catalogEntry clnHoldContract "26.06.7-hold.0.3.3"
      "proofstorm-registry.localhost:5000/cln-hold@sha256:2190679589650073085fd19391f9d0da0bd0130c1b6434f8ac0b055b1f5426a7"
      "sha256:cln-hold-schema" "sha256:cln-hold-source" [.nativeCli,.regtest,.persistentState,.bolt11]
      [⟨.chainBackend,"bitcoin-core",["31.1"]⟩] ⟨[],[],[]⟩ [.cell,.target],
    catalogEntry barkServerContract "0.7.0-6188e2d"
      "proofstorm-registry.localhost:5000/bark-server@sha256:d05afa9fc60b8c0436cc9742fac9f61fbf8a9061fdbb197e981c751d6ab63973"
      "sha256:bark-server-schema" "sha256:bark-server-source" [.nativeCli,.regtest,.persistentState,.postgres,.bolt11]
      [⟨.chainBackend,"bitcoin-core",["31.1"]⟩,⟨.databaseBackend,"postgresql",["17.11"]⟩,
        ⟨.paymentBackend,clnHold,["26.06.7-hold.0.3.3"]⟩]
      ⟨[⟨.bolt11,"sat",clnHold,["26.06.7-hold.0.3.3"]⟩],[],[]⟩ [.cell,.target],
    catalogEntry barkProcessorContract "0.1.0-fe468ca"
      "proofstorm-registry.localhost:5000/cdk-bark-processor@sha256:0d42619e268a902d7fe7058ce8c575d9efb6046d18f3762773669713c578e8f3"
      "sha256:cdk-bark-processor-schema" "sha256:cdk-bark-processor-source" [.regtest,.persistentState,.bolt11,.onchain]
      [⟨.chainBackend,"bitcoin-core",["31.1"]⟩,⟨.arkBackend,barkServer,["0.7.0-6188e2d"]⟩] ⟨[],[],[]⟩ [.cell,.target],
    catalogEntry Publication.cdk "0.18.2"
      "proofstorm-registry.localhost:5000/cdk-mint@sha256:25e54ceb3999a4f99b88b838e1d66a69b0a91043823e50025d7544b968b77e10"
      "sha256:cdk-schema" "sha256:cdk-source" [.nativeCli,.regtest,.persistentState,.bolt11,.bolt12,.onchain]
      [⟨.chainBackend,"bitcoin-core",["31.1"]⟩,⟨.paymentBackend,barkProcessor,["0.1.0-fe468ca"]⟩]
      ⟨ProcessorProfile.bark.supportedMethods.map fun method => ⟨method,"sat",barkProcessor,["0.1.0-fe468ca"]⟩,
        cdkEmbeddedBindings.map fun (method,unit,backend) => ⟨method,unit,backend⟩,[]⟩ [.target]]

def arkChain (source : String) : LinkSpec :=
  ⟨source ++ "-chain",.chainBackend,source,"chain",some (.chain .regtest)⟩

/-- A mint with the given settings, beside a processor that advertises arkoor only. -/
def arkMint (config : List (String × Json)) : ComponentSpec :=
  ⟨"mint",.mint,"cdk",none,"cdk-mintd/0.18/v1",.target,config⟩

def arkCell (config : List (String × Json)) (chains : List LinkSpec) : CellSpec :=
  { apiVersion := apiVersion
    name := "ark-cell"
    components := [⟨"chain",.bitcoin,"bitcoin-core",none,"bitcoin-core/31/v1",.cell,[]⟩,
      ⟨"postgres",.database,"postgresql",none,"postgresql/17/v1",.cell,[]⟩,
      ⟨"cln",.lightning,clnHold,none,"cln-hold/26.06/v1",.cell,[]⟩,
      ⟨"ark",.arkServer,barkServer,none,"bark-server/0.7/v1",.cell,[]⟩,
      ⟨"processor",.paymentProcessor,barkProcessor,none,"cdk-bark-processor/0.1/v1",.target,
        [("payment_methods",Json.array [.str "arkoor"])]⟩,
      arkMint config]
    links := [arkChain "cln",arkChain "ark",arkChain "processor",
      ⟨"ark-database",.databaseBackend,"ark","postgres",some (.database .primary (some "bark"))⟩,
      ⟨"ark-lightning",.paymentBackend,"ark","cln",some (.payment .bolt11 "sat")⟩,
      ⟨"processor-ark",.arkBackend,"processor","ark",some (.ark .regtest)⟩,
      ⟨"mint-arkoor",.paymentBackend,"mint","processor",some (.payment (.custom "arkoor") "sat")⟩] ++ chains
    policy := ⟨[],⟨none,none,none⟩⟩ }

def arkPublished (config : List (String × Json)) (chains : List LinkSpec) :
    Except Plans.AdapterError (List ComponentPlanContract) :=
  publishedPlans documentDigest arkCatalog (arkCell config chains) "sha256:revision"

def arkPlans (config : List (String × Json)) (chains : List LinkSpec) : List ComponentPlanContract :=
  (arkPublished config chains).toOption.getD []

theorem ark_runs {config : List (String × Json)} {chains : List LinkSpec}
    (published : (arkPublished config chains).toOption.isSome = true) :
    RunsBy documentDigest arkCatalog (arkCell config chains) "sha256:revision" (arkPlans config chains) := by
  refine publishedPlans_ok.mp ?_
  unfold arkPlans
  change arkPublished config chains = _
  cases result : arkPublished config chains with
  | ok plans => rfl
  | error e =>
    rw [result] at published
    cases published

theorem ark_offers : OffersCdk arkCatalog := by
  constructor <;> decide +kernel

/-- The published cell renders its mint as `p` has it. -/
theorem ark_rendered {config : List (String × Json)} {chains : List LinkSpec} {p : PaymentSections → Bool}
    (rendered : (arkPublished config chains).toOption.any (fun plans =>
      (plans.find? fun plan => plan.componentId == "mint").any fun plan => (renderCdkComponent plan).toOption.any p) =
        true) :
    RunsBy documentDigest arkCatalog (arkCell config chains) "sha256:revision" (arkPlans config chains) ∧
      ∃ plan ∈ arkPlans config chains, plan.componentId = (arkMint config).id ∧
        ∃ sections, renderCdkComponent plan = .ok sections ∧ p sections = true := by
  obtain ⟨plans,published,rendered⟩ := (Option.any_eq_true _ _).mp rendered
  obtain ⟨plan,found,rendered⟩ := (Option.any_eq_true _ _).mp rendered
  obtain ⟨sections,written,holds⟩ := (Option.any_eq_true _ _).mp rendered
  have named : plan.componentId = "mint" := by simpa using List.find?_some found
  refine ⟨ark_runs (by rw [published]; rfl),plan,?_,named,sections,?_,holds⟩
  · rw [arkPlans,published]
    exact List.mem_of_find?_eq_some found
  · cases render : renderCdkComponent plan with
    | ok sections' =>
      rw [render] at written
      rw [Option.some.inj written]
    | error e =>
      rw [render] at written
      cases written

/-- Linked to the processor alone, the mint is rendered with arkoor. -/
theorem rendered_iff_accepted_linked : ∃ plan ∈ arkPlans [] [], ∃ sections, renderCdkComponent plan = .ok sections ∧
    ((∀ tuple, tuple ∈ sections.served (arkCell [] []) ↔ tuple ∈ acceptedTuples (arkCell [] []) (arkMint [])) ↔
      ¬ (embedsLdk (arkMint []) = true ∧ outgoing (arkCell [] []) (arkMint []) .paymentBackend ≠ [])) := by
  obtain ⟨runs,plan,listed,named,_⟩ := @ark_rendered [] [] (fun sections =>
    sections.served (arkCell [] []) = [(.custom "arkoor","sat",barkProcessor)]) (by decide +kernel)
  exact ⟨plan,listed,rendered_iff_accepted ark_offers (by unfold Mapped Entries.Sorted; decide) runs (by decide)
    (by decide) listed named⟩

def ldkConfig : List (String × Json) := [("embedded_lightning",.str "ldk-node")]

/-- With LDK Node embedded as well, the mint is accepted for BOLT11 through it and
    rendered without. -/
theorem embedded_ldk_left_out :
    RunsBy documentDigest arkCatalog (arkCell ldkConfig [arkChain "mint"]) "sha256:revision"
      (arkPlans ldkConfig [arkChain "mint"]) ∧
    (.bolt11,"sat","ldk-node") ∈ acceptedTuples (arkCell ldkConfig [arkChain "mint"]) (arkMint ldkConfig) ∧
    ∃ plan ∈ arkPlans ldkConfig [arkChain "mint"], plan.componentId = (arkMint ldkConfig).id ∧
      ∃ sections, renderCdkComponent plan = .ok sections ∧
        (.bolt11,"sat","ldk-node") ∉ sections.served (arkCell ldkConfig [arkChain "mint"]) := by
  obtain ⟨runs,plan,listed,named,sections,rendered,served⟩ := @ark_rendered ldkConfig [arkChain "mint"]
    (fun sections => sections.served (arkCell ldkConfig [arkChain "mint"]) =
      [(.custom "arkoor","sat",barkProcessor)]) (by decide +kernel)
  refine ⟨runs,by decide +kernel,plan,listed,named,sections,rendered,?_⟩
  rw [of_decide_eq_true served]
  decide

end Proofstorm.Rendering
