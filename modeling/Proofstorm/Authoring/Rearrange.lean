import Proofstorm.Authoring.Clean

/-!
The checks of a cell do not see the order of its components and links, nor a
default that is written out. `Alike` relates two components that every check reads
alike, `Rearranged` two cells made of such components and of the same links; what
passes the checks passes them rearranged, as long as its configurations still fit
(`CellClean.rearranged`).
-/
namespace Proofstorm.Validation
open Proofstorm.Core

/-! ### What is related -/

/-- Two components that differ at most in settings that no check tells apart. -/
structure Alike (a b : ComponentSpec) : Prop where
  id : a.id = b.id
  kind : a.kind = b.kind
  implementation : a.implementation = b.implementation
  version : a.version = b.version
  configVersion : a.configVersion = b.configVersion
  control : a.control = b.control
  oidcUrl : a.implementation = "nutshell" →
    ((a.get "oidc_discovery_url").bind Json.asStr).any (· ≠ "") =
      ((b.get "oidc_discovery_url").bind Json.asStr).any (· ≠ "")
  oidcClient : a.implementation = "nutshell" →
    ((a.get "oidc_client_id").bind Json.asStr).any (· ≠ "cashu-client") =
      ((b.get "oidc_client_id").bind Json.asStr).any (· ≠ "cashu-client")
  txindex : a.implementation = "bitcoin-core" →
    (a.get "txindex").any (· ≠ .bool true) = (b.get "txindex").any (· ≠ .bool true)
  methods : ∀ profile, ProcessorProfile.forImplementation a.implementation = some profile →
    profile.advertisedMethods a = profile.advertisedMethods b
  lightning : a.implementation = "cdk" →
    configured a "embedded_lightning" "none" = configured b "embedded_lightning" "none"
  unit : a.implementation = "cdk" →
    configured a "embedded_lightning_unit" "sat" = configured b "embedded_lightning_unit" "sat"
  onchain : a.implementation = "cdk" →
    configured a "embedded_onchain" "none" = configured b "embedded_onchain" "none"
  payment : a.implementation = "cdk" →
    ((a.get "allow_mint_quote_payment_override").bind Json.asBool = some true ↔
      (b.get "allow_mint_quote_payment_override").bind Json.asBool = some true)
  native : ∀ o, overrides a.implementation = some o → a.get o.field = b.get o.field

theorem Alike.refl (a : ComponentSpec) : Alike a a where
  id := rfl
  kind := rfl
  implementation := rfl
  version := rfl
  configVersion := rfl
  control := rfl
  oidcUrl _ := rfl
  oidcClient _ := rfl
  txindex _ := rfl
  methods _ _ := rfl
  lightning _ := rfl
  unit _ := rfl
  onchain _ := rfl
  payment _ := Iff.rfl
  native _ _ := rfl

/-- Two cells made of components that are read alike and of the same links, in any order. -/
structure Rearranged (c e : CellSpec) : Prop where
  apiVersion : c.apiVersion = e.apiVersion
  name : c.name = e.name
  policy : c.policy = e.policy
  links : c.links.Perm e.links
  count : c.components.length = e.components.length
  forth : ∀ a ∈ c.components, ∃ b ∈ e.components, Alike a b
  back : ∀ b ∈ e.components, ∃ a ∈ c.components, Alike a b
  distinct : c.ids.Nodup
  distinct' : e.ids.Nodup

theorem any_perm {α : Type} {a b : List α} (perm : a.Perm b) (p : α → Bool) : a.any p = b.any p := by
  rw [Bool.eq_iff_iff,List.any_eq_true,List.any_eq_true]
  simp only [perm.mem_iff]

section
variable {c e : CellSpec}

theorem Rearranged.ids (same : Rearranged c e) {id : String} : id ∈ c.ids ↔ id ∈ e.ids := by
  simp only [CellSpec.ids,List.mem_map]
  constructor
  · rintro ⟨a,member,rfl⟩
    obtain ⟨b,member',alike⟩ := same.forth a member
    exact ⟨b,member',alike.id.symm⟩
  · rintro ⟨b,member,rfl⟩
    obtain ⟨a,member',alike⟩ := same.back b member
    exact ⟨a,member',alike.id⟩

variable {a b : ComponentSpec}

theorem Rearranged.outgoingPerm (same : Rearranged c e) (alike : Alike a b) (kind : LinkKind) :
    (outgoing c a kind).Perm (outgoing e b kind) := by
  unfold outgoing
  rw [alike.id]
  exact same.links.filter _

/-- A component of a cell is known by its id. -/
theorem eq_of_id (distinct : c.ids.Nodup) (left : a ∈ c.components) (right : b ∈ c.components)
    (same : a.id = b.id) : a = b :=
  List.inj_on_of_nodup_map distinct left right same

/-- What is found by its id is what is there. -/
theorem find_eq_some (distinct : c.ids.Nodup) {id : String} {p : ComponentSpec → Bool}
    (keyed : ∀ t, p t = true → t.id = id) {t : ComponentSpec} :
    c.components.find? p = some t ↔ t ∈ c.components ∧ p t = true := by
  constructor
  · intro found
    exact ⟨List.mem_of_find?_eq_some found,List.find?_some found⟩
  · rintro ⟨member,holds⟩
    cases found : c.components.find? p with
    | none => exact absurd holds (by simpa using List.find?_eq_none.mp found t member)
    | some other =>
      have same : other.id = t.id := (keyed other (List.find?_some found)).trans (keyed t holds).symm
      rw [eq_of_id distinct (List.mem_of_find?_eq_some found) member same]

/-- A search by id finds alike components in both cells. -/
theorem Rearranged.find (same : Rearranged c e) (id : String) {p : ComponentSpec → Bool}
    (keyed : ∀ t, p t = true → t.id = id) (respects : ∀ a b, Alike a b → p a = p b) :
    Option.Rel Alike (c.components.find? p) (e.components.find? p) := by
  cases found : c.components.find? p with
  | none =>
    have absent : e.components.find? p = none := by
      rw [List.find?_eq_none]
      intro b member holds
      obtain ⟨a,member',alike⟩ := same.back b member
      exact List.find?_eq_none.mp found a member' (by rw [respects a b alike,holds])
    rw [absent]
    exact .none
  | some a =>
    obtain ⟨member,holds⟩ := (find_eq_some same.distinct keyed).mp found
    obtain ⟨b,member',alike⟩ := same.forth a member
    have there : e.components.find? p = some b :=
      (find_eq_some same.distinct' keyed).mpr ⟨member',by rw [← respects a b alike,holds]⟩
    rw [there]
    exact .some alike

theorem Rearranged.kindOf (same : Rearranged c e) (id : String) : kindOf c id = kindOf e id := by
  have last : ∀ {d : CellSpec}, d.ids.Nodup → ∀ t, d.components.reverse.find? (·.id == id) = some t ↔
      t ∈ d.components ∧ t.id = id := by
    intro d unique t
    constructor
    · intro found
      exact ⟨List.mem_reverse.mp (List.mem_of_find?_eq_some found),by simpa using List.find?_some found⟩
    · rintro ⟨member,rfl⟩
      cases found : d.components.reverse.find? (·.id == t.id) with
      | none => simpa using List.find?_eq_none.mp found t (List.mem_reverse.mpr member)
      | some other =>
        have equal : other.id = t.id := by simpa using List.find?_some found
        rw [eq_of_id unique (List.mem_reverse.mp (List.mem_of_find?_eq_some found)) member equal]
  unfold Validation.kindOf
  cases found : c.components.reverse.find? (·.id == id) with
  | none =>
    have absent : e.components.reverse.find? (·.id == id) = none := by
      rw [List.find?_eq_none]
      intro b member holds
      obtain ⟨a,member',alike⟩ := same.back b (List.mem_reverse.mp member)
      have here := List.find?_eq_none.mp found a (List.mem_reverse.mpr member')
      rw [alike.id] at here
      exact here holds
    rw [absent]
  | some a =>
    obtain ⟨member,rfl⟩ := (last same.distinct a).mp found
    obtain ⟨b,member',alike⟩ := same.forth a member
    rw [(last same.distinct' b).mpr ⟨member',alike.id.symm⟩]
    simp [alike.kind]

/-! ### Links -/

variable {link : LinkSpec}

theorem binding_of_databaseName {name : String} (named : link.databaseName = some name) :
    ∃ role database, link.binding = some (.database role database) := by
  unfold LinkSpec.databaseName at named
  split at named
  · rename_i role database bound
    exact ⟨role,database,bound⟩
  · cases named

theorem BindingClean.kind_of_name (clean : BindingClean link) {name : String}
    (named : link.databaseName = some name) : link.kind = .databaseBackend := by
  obtain ⟨role,database,bound⟩ := binding_of_databaseName named
  simp only [BindingClean,bound] at clean
  exact clean.1.symm

theorem binds_iff {binding : Option DependencyBinding} {role : DatabaseRole} :
    binding.any (·.binds role) = true ↔ ∃ database, binding = some (.database role database) := by
  cases binding with
  | none => simp
  | some binding => cases binding <;> simp [DependencyBinding.binds,eq_comm]

theorem LinksApart.symm {a b : LinkSpec} (left : BindingClean a) (apart : LinksApart a b) : LinksApart b a := by
  refine ⟨apart.id.symm,fun name named server _ taken => ?_,fun role database bound source => ?_⟩
  · exact apart.databases.name name taken server.symm (left.kind_of_name named) named
  · rw [Bool.eq_false_iff]
    intro bound'
    obtain ⟨database',is⟩ := binds_iff.mp bound'
    have free := apart.databases.role role database' is source.symm
    rw [Bool.eq_false_iff] at free
    exact free (binds_iff.mpr ⟨database,bound⟩)

theorem Rearranged.validLinks (same : Rearranged c e) (clean : validateLinks c = []) : validateLinks e = [] := by
  obtain ⟨each,pairs⟩ := validateLinks_clean.mp clean
  refine validateLinks_clean.mpr ⟨fun link member => ?_,?_⟩
  · have here := each link (same.links.mem_iff.mpr member)
    refine ⟨here.id,here.binding,here.name,here.apart,same.ids.mp here.source,same.ids.mp here.target,?_⟩
    intro source target
    rw [← same.kindOf,← same.kindOf]
    exact here.kinds source target
  · have both : c.links.Pairwise fun a b => LinksApart a b ∧ LinksApart b a :=
      pairs.imp_of_mem fun {a b} left _ apart => ⟨apart,apart.symm (each a left).binding⟩
    exact (same.links.pairwise both fun {a b} pair => ⟨pair.2,pair.1⟩).imp And.left

/-! ### Authentication -/

/-- A check of each component is passed in both cells, where alike components fare alike. -/
theorem Rearranged.enumerate (same : Rearranged c e) {check check' : Nat → ComponentSpec → List ValidationIssue}
    (each : ∀ i j a b, a ∈ c.components → b ∈ e.components → Alike a b → check i a = [] → check' j b = [])
    (clean : enumerate check c.components = []) : enumerate check' e.components = [] := by
  rw [enumerate_eq_nil] at clean ⊢
  intro j b found
  have there := List.mem_of_getElem? found
  obtain ⟨a,member,alike⟩ := same.back b there
  obtain ⟨i,bound,rfl⟩ := List.getElem_of_mem member
  exact each i j _ b member there alike (clean i _ (List.getElem?_eq_getElem bound))

theorem Rearranged.validAuthentication (same : Rearranged c e) (clean : validateAuthenticationTopology c = []) :
    validateAuthenticationTopology e = [] := by
  refine same.enumerate (fun i j a b _ _ alike here => ?_) clean
  have providers := (same.outgoingPerm alike .authenticationBackend).length_eq
  have databases := ((same.outgoingPerm alike .databaseBackend).filter fun link => link.binding.any (·.binds .primary)).length_eq
  have role := any_perm same.links fun link => link.from == b.id && link.binding.any (·.binds .authentication)
  unfold validateAuthentication validateKeycloak at here ⊢
  rw [providers,databases,alike.id,alike.implementation,alike.kind,role] at here
  simp only [List.append_eq_nil_iff,issue_eq_nil] at here ⊢
  refine ⟨here.1,?_⟩
  have rest := here.2
  by_cases mint : b.kind = .mint
  · rw [if_neg (by simpa using mint)] at rest ⊢
    simp only [List.append_eq_nil_iff,issue_eq_nil] at rest ⊢
    refine ⟨rest.1,?_⟩
    have nutshell := rest.2
    split_ifs at nutshell ⊢ with outside
    · rfl
    · have inside : a.implementation = "nutshell" := by
        rw [alike.implementation]
        by_contra other
        exact outside (.inl other)
      simp only [validateNutshellOidc,List.append_eq_nil_iff,issue_eq_nil] at nutshell ⊢
      rw [← alike.oidcUrl inside,← alike.oidcClient inside]
      exact nutshell
  · rw [if_pos mint]

/-! ### Stacks -/

theorem resolve_implementation {requirement : Requirement} {t : ComponentSpec}
    (found : requirement.resolve c a = some t) : t.implementation = requirement.targetImpl := by
  unfold Requirement.resolve at found
  split at found
  · split_ifs at found
    have holds := List.find?_some found
    simp only [Bool.and_eq_true,beq_iff_eq] at holds
    exact holds.2
  · cases found

theorem Rearranged.resolve (same : Rearranged c e) (requirement : Requirement)
    (alike : Alike a b) : Option.Rel Alike (requirement.resolve c a) (requirement.resolve e b) := by
  have perm := same.outgoingPerm alike requirement.linkKind
  unfold Requirement.resolve
  cases left : outgoing c a requirement.linkKind with
  | nil =>
    rw [left] at perm
    rw [perm.nil_eq.symm]
    exact .none
  | cons link rest =>
    cases rest with
    | nil =>
      rw [left] at perm
      have right : outgoing e b requirement.linkKind = [link] := (List.singleton_perm.mp perm).symm
      rw [right]
      dsimp only
      by_cases bound : link.binding.any requirement.binding
      · rw [if_pos bound,if_pos bound]
        refine same.find link.to (fun t holds => ?_) fun x y pair => ?_
        · simp only [Bool.and_eq_true,beq_iff_eq] at holds
          exact holds.1.1
        · rw [pair.id,pair.kind,pair.implementation]
      · rw [if_neg bound,if_neg bound]
        exact .none
    | cons second others =>
      have length := perm.length_eq
      rw [left] at length
      cases right : outgoing e b requirement.linkKind with
      | nil =>
        rw [right] at length
        simp at length
      | cons link' rest' =>
        cases rest' with
        | nil =>
          rw [right] at length
          simp at length
        | cons => exact .none

theorem isNone_of_rel {a b : Option ComponentSpec} (rel : Option.Rel Alike a b) : a.isNone = b.isNone := by
  cases rel <;> rfl

theorem some_of_rel {a b : Option ComponentSpec} (rel : Option.Rel Alike a b) {t' : ComponentSpec} (found : b = some t') :
    ∃ t, a = some t ∧ Alike t t' := by
  subst found
  cases rel with
  | some alike => exact ⟨_,rfl,alike⟩

theorem Rearranged.requirements (same : Rearranged c e) (alike : Alike a b)
    {path path' stack : String} {kind : ComponentKind} {requirements : List Requirement}
    (clean : validateRequirements c a path stack kind requirements = []) :
    validateRequirements e b path' stack kind requirements = [] := by
  unfold validateRequirements unexpectedDependency at clean ⊢
  simp only [List.append_eq_nil_iff,issue_eq_nil,List.flatMap_eq_nil_iff] at clean ⊢
  obtain ⟨⟨right,resolved⟩,expected⟩ := clean
  refine ⟨⟨by rwa [← alike.kind],fun requirement member => ?_⟩,fun link member => ?_⟩
  · rw [← isNone_of_rel (same.resolve requirement alike)]
    exact resolved requirement member
  · rw [← alike.id]
    exact expected link (same.links.mem_iff.mpr member)

theorem Rearranged.barkDownstream (same : Rearranged c e) (alike : Alike a b) :
    Option.Rel Alike (barkDownstream c a) (barkDownstream e b) := by
  unfold Validation.barkDownstream
  rw [alike.implementation]
  split_ifs
  · exact same.resolve _ alike
  · exact same.resolve _ alike
  · exact .none

theorem validateBarkChain_clean {path : String} :
    validateBarkChain c a path = [] ↔ ∀ chain, chainRequirement.resolve c a = some chain →
      (chain.get "txindex").any (· ≠ .bool true) = false ∧ ∀ downstream, barkDownstream c a = some downstream →
        ∀ other, chainRequirement.resolve c downstream = some other → chain.id = other.id := by
  unfold validateBarkChain
  cases chainRequirement.resolve c a with
  | none => simp
  | some chain =>
    simp only [List.append_eq_nil_iff,issue_eq_nil,Option.some.injEq,forall_eq']
    cases barkDownstream c a with
    | none => simp
    | some downstream =>
      simp only [Option.some.injEq,forall_eq']
      cases chainRequirement.resolve c downstream <;> simp

theorem Rearranged.barkChain (same : Rearranged c e) (alike : Alike a b) {path path' : String}
    (clean : validateBarkChain c a path = []) : validateBarkChain e b path' = [] := by
  rw [validateBarkChain_clean] at clean ⊢
  intro chain' found'
  obtain ⟨chain,found,pair⟩ := some_of_rel (same.resolve chainRequirement alike) found'
  obtain ⟨indexed,shared⟩ := clean chain found
  refine ⟨by rw [← pair.txindex (resolve_implementation found)]; exact indexed,fun target' down' other' far' => ?_⟩
  obtain ⟨target,down,reach⟩ := some_of_rel (same.barkDownstream alike) down'
  obtain ⟨other,far,pair'⟩ := some_of_rel (same.resolve chainRequirement reach) far'
  rw [← pair.id,← pair'.id]
  exact shared target down other far

theorem Rearranged.validBark (same : Rearranged c e) (clean : validateBarkTopology c = []) :
    validateBarkTopology e = [] := by
  refine same.enumerate (fun i j a b _ _ alike here => ?_) clean
  unfold validateBark at here ⊢
  rw [← alike.implementation]
  cases found : barkRequirements a.implementation with
  | none => rfl
  | some required =>
    rw [found] at here
    simp only [List.append_eq_nil_iff] at here ⊢
    exact ⟨same.requirements alike here.1,same.barkChain alike here.2⟩

theorem Rearranged.chainOf (same : Rearranged c e) (requirement : Requirement)
    (alike : Alike a b) {chain' : ComponentSpec} (found' : chainOf requirement e b = some chain') :
    ∃ chain, chainOf requirement c a = some chain ∧ Alike chain chain' := by
  simp only [Validation.chainOf,Option.bind_eq_some_iff] at found' ⊢
  obtain ⟨target',down',far'⟩ := found'
  obtain ⟨target,down,reach⟩ := some_of_rel (same.resolve requirement alike) down'
  obtain ⟨chain,far,pair⟩ := some_of_rel (same.resolve chainRequirement reach) far'
  exact ⟨chain,⟨target,down,far⟩,pair⟩

theorem validateSharedChain_clean {path : String} :
    validateSharedChain c a path = [] ↔ ∀ operators, chainOf operatorsRequirement c a = some operators →
      ∀ lightning, chainOf sparkLightning c a = some lightning → operators.id = lightning.id := by
  unfold validateSharedChain
  cases chainOf operatorsRequirement c a <;> cases chainOf sparkLightning c a <;> simp

theorem Rearranged.sharedChain (same : Rearranged c e) (alike : Alike a b)
    {path path' : String} (clean : validateSharedChain c a path = []) : validateSharedChain e b path' = [] := by
  rw [validateSharedChain_clean] at clean ⊢
  intro operators' found' lightning' paid'
  obtain ⟨operators,found,pair⟩ := same.chainOf operatorsRequirement alike found'
  obtain ⟨lightning,paid,pair'⟩ := same.chainOf sparkLightning alike paid'
  rw [← pair.id,← pair'.id]
  exact clean operators found lightning paid

theorem Rearranged.databaseNames (same : Rearranged c e) (alike : Alike a b)
    {path path' : String} (clean : validateDatabaseNames c a path = []) : validateDatabaseNames e b path' = [] := by
  unfold validateDatabaseNames at clean ⊢
  simp only [List.flatMap_eq_nil_iff,issue_eq_nil] at clean ⊢
  intro name member
  exact clean name (((same.outgoingPerm alike .databaseBackend).filterMap _).mem_iff.mpr member)

theorem Rearranged.validSpark (same : Rearranged c e) (clean : validateSparkTopology c = []) :
    validateSparkTopology e = [] := by
  refine same.enumerate (fun i j a b _ _ alike here => ?_) clean
  unfold validateSpark at here ⊢
  rw [← alike.implementation]
  cases found : sparkRequirements a.implementation with
  | none => rfl
  | some required =>
    rw [found] at here
    simp only [List.append_eq_nil_iff] at here ⊢
    refine ⟨same.requirements alike here.1,?_⟩
    have rest := here.2
    split_ifs at rest ⊢
    · exact same.sharedChain alike rest
    · exact same.databaseNames alike rest
    · rfl

end

end Proofstorm.Validation
