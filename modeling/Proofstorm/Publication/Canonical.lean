import Proofstorm.Publication.Effective
import Proofstorm.Publication.Databases
import Mathlib.Data.List.Perm.Basic

/-!
Publication names one cell once: the order of the components and links does not
reach the effective cell, nor does a default of a setting that is written out, and
the effective cell is published as itself.
-/
namespace Proofstorm.Core

/-! ### The digest of a publication -/

def Capability.dotted : Capability → String
  | .catalogRead => "catalog.read"
  | .candidateBuild => "candidate.build"
  | .candidateRead => "candidate.read"
  | .candidateCancel => "candidate.cancel"
  | .cellRead => "cell.read"
  | .cellCreate => "cell.create"
  | .cellEdit => "cell.edit"
  | .cellClone => "cell.clone"
  | .cellValidate => "cell.validate"
  | .cellPublish => "cell.publish"
  | .cellMaterialize => "cell.materialize"
  | .cellStatus => "cell.status"
  | .cellClose => "cell.close"
  | .cellConnect => "cell.connect"
  | .experimentCreate => "experiment.create"
  | .experimentRead => "experiment.read"
  | .experimentClose => "experiment.close"
  | .cellOperate => "cell.operate"
  | .actionCancel => "action.cancel"
  | .topologyInspect => "topology.inspect"
  | .topologyMutate => "topology.mutate"
  | .nodeAdd => "node.add"
  | .nodeRemove => "node.remove"
  | .nodeControl => "node.control"
  | .componentControl => "component.control"
  | .peerConnect => "peer.connect"
  | .peerDisconnect => "peer.disconnect"
  | .walletCreate => "wallet.create"
  | .walletControl => "wallet.control"
  | .walletFund => "wallet.fund"
  | .channelOpen => "channel.open"
  | .channelClose => "channel.close"
  | .channelForceClose => "channel.force_close"
  | .channelRebalance => "channel.rebalance"
  | .chainMine => "chain.mine"
  | .chainFee => "chain.fee"
  | .chainReorg => "chain.reorg"
  | .networkDelay => "network.delay"
  | .networkDrop => "network.drop"
  | .networkPartition => "network.partition"
  | .networkHeal => "network.heal"
  | .componentLogs => "component.logs"
  | .componentExecLive => "component.exec_live"
  | .componentForensics => "component.forensics"
  | .authenticationTest => "authentication.test"
  | .trafficCapture => "traffic.capture"
  | .oracleList => "oracle.list"
  | .oracleRun => "oracle.run"
  | .artifactRead => "artifact.read"
  | .policyRead => "policy.read"
  | .policyEdit => "policy.edit"
  | .snapshotCreate => "snapshot.create"
  | .snapshotRestore => "snapshot.restore"
  | .mintQuotePaymentOverride => "mint.quote_payment_override"
  | .mintNativeConfigOverride => "mint.native_config_override"

def ComponentKind.snake : ComponentKind → String
  | .bitcoin => "bitcoin"
  | .lightning => "lightning"
  | .arkServer => "ark_server"
  | .sparkServer => "spark_server"
  | .paymentProcessor => "payment_processor"
  | .mint => "mint"
  | .database => "database"
  | .identityProvider => "identity_provider"
  | .wallet => "wallet"
  | .workspace => "workspace"
  | .proxy => "proxy"
  | .oracle => "oracle"

def ControlClass.snake : ControlClass → String
  | .cell => "cell"
  | .target => "target"
  | .workspace => "workspace"
  | .oracle => "oracle"

end Proofstorm.Core

namespace Proofstorm.Publication
open Proofstorm.Core Validation

def componentJson (component : ComponentSpec) : Json :=
  Json.object ([("id",.str component.id),("kind",.str component.kind.snake),
      ("implementation",.str component.implementation)] ++
    optional "version" (component.version.map .str) ++
    [("config_version",.str component.configVersion),("control",.str component.control.snake),
      ("config",Json.object component.config)])

def limitsJson (limits : CellLimits) : Json :=
  Json.object (optional "max_components" (limits.maxComponents.map fun limit => .num limit.repr) ++
    optional "max_links" (limits.maxLinks.map fun limit => .num limit.repr) ++
    optional "max_config_bytes" (limits.maxConfigBytes.map fun limit => .num limit.repr))

def cellJson (cell : CellSpec) : Json :=
  Json.object [("api_version",.str cell.apiVersion),("name",.str cell.name),
    ("components",Json.array (cell.components.map componentJson)),("links",Json.array (cell.links.map linkJson)),
    ("policy",Json.object [("allow",Json.array (cell.policy.allow.map fun capability => .str capability.dotted)),
      ("limits",limitsJson cell.policy.limits)])]

def ResolvedLock.json (lock : ResolvedLock) : Json :=
  Json.object [("api_version",.str lock.apiVersion),("digest",.str lock.digest),
    ("entries",Json.array (lock.entries.map LockEntry.json))]

/-- `publication_digest`. -/
def publicationDigest (digestJson : Json → String) (workspace : String) (cell : CellSpec) (lock : ResolvedLock) :
    String :=
  digestJson (Json.array [.str workspace,cellJson cell,lock.json])

/-- The digest of what a cell is published as. -/
def publishedDigest (digestJson : Json → String) (catalog : CatalogResponse) (workspace : String) (cell : CellSpec) :
    Except String String := do
  let effective ← resolveEffectiveCell cell catalog
  let lock ← resolveLock digestJson cell catalog
  return publicationDigest digestJson workspace effective lock

/-! ### Spellings of a cell -/

/-- The same component, with some omitted settings written out at their defaults. -/
structure Spells (authored spelled : ComponentSpec) : Prop where
  rest : spelled = { authored with config := spelled.config }
  mapped : Mapped spelled
  settings : ∀ name, spelled.get name = authored.get name ∨
    authored.get name = none ∧ ∃ contract, defaultRegistry.require authored.implementation = .ok contract ∧
      spelled.get name = (contract.defaultOf name).map (resolveConfigDefault authored.id)

/-- The same cell with its components and links in another order. -/
structure Permutes (cell other : CellSpec) : Prop where
  rest : other = { cell with components := other.components, links := other.links }
  components : cell.components.Perm other.components
  links : cell.links.Perm other.links

/-- The same cell in another order, with some omitted settings written out. -/
structure Rewrites (cell other : CellSpec) : Prop where
  rest : other = { cell with components := other.components, links := other.links }
  components : ∃ spelled, List.Forall₂ Spells cell.components spelled ∧ spelled.Perm other.components
  links : cell.links.Perm other.links

/-- The configurations of a cell keep to its policy. -/
def Fits (cell : CellSpec) : Prop :=
  ∀ component ∈ cell.components, exceedsPolicyLimit (configBytes component) cell.policy.limits.maxConfigBytes = false

/-! ### The effective cell -/

section
variable {catalog : CatalogResponse} {cell other effective : CellSpec}

theorem resolveEffectiveCell_ok : resolveEffectiveCell cell catalog = .ok effective ↔
    ∃ components, List.Forall₂ (fun a b => resolveComponent catalog a = .ok b) cell.components components ∧
      effective = canonical cell components := by
  simp only [resolveEffectiveCell,bind_ok,pure_ok,mapM_ok]
  constructor
  · rintro ⟨components,each,same⟩
    exact ⟨components,each,same.symm⟩
  · rintro ⟨components,each,same⟩
    exact ⟨components,each,same.symm⟩

/-- Components by id are in one order, whichever they came in. -/
theorem canonical_eq {components components' : List ComponentSpec}
    (rest : other = { cell with components := other.components, links := other.links })
    (perm : components.Perm components') (distinct : (components.map ComponentSpec.id).Nodup)
    (links : cell.links.Perm other.links) (apart : cell.links.Pairwise fun a b => a.id ≠ b.id) :
    canonical cell components = canonical other components' := by
  have sorted := Entries.insertionSort_eq (f := ComponentSpec.id) perm fun x left y right same =>
    List.inj_on_of_nodup_map distinct left right same
  have linked := Entries.insertionSort_eq (f := linkKey) links fun x left y right same => by
    have named : (cell.links.map LinkSpec.id).Nodup := by
      rw [List.Nodup,List.pairwise_map]
      exact apart
    refine List.inj_on_of_nodup_map named left right ?_
    have heads := List.head_eq_of_cons_eq same
    simpa [keyPart] using heads
  rw [canonical,canonical,rest,sorted,linked]

theorem resolved_ids {authored components : List ComponentSpec}
    (each : List.Forall₂ (fun a b => resolveComponent catalog a = .ok b) authored components) :
    components.map ComponentSpec.id = authored.map ComponentSpec.id := by
  induction each with
  | nil => rfl
  | cons resolved _ ih =>
    obtain ⟨contract,resolves⟩ := resolveComponent_ok.mp resolved
    rw [List.map_cons,List.map_cons,resolves.same_id,ih]

/-- The effective cell is the authored one rearranged. -/
theorem effective_rearranged (clean : CellClean cell) (mapped : ∀ component ∈ cell.components, Mapped component)
    (resolved : resolveEffectiveCell cell catalog = .ok effective) : Rearranged cell effective := by
  obtain ⟨components,each,rfl⟩ := resolveEffectiveCell_ok.mp resolved
  have sorted : (canonical cell components).components.Perm components := List.perm_insertionSort _ _
  have ids := resolved_ids each
  have distinct := (validateComponents_clean.mp clean.components).2
  constructor
  · rfl
  · rfl
  · rfl
  · exact (List.perm_insertionSort _ _).symm
  · rw [sorted.length_eq,each.length_eq]
  · intro a member
    obtain ⟨b,there,is⟩ := exists_of_mem_left each member
    obtain ⟨contract,resolves⟩ := resolveComponent_ok.mp is
    exact ⟨b,sorted.mem_iff.mpr there,resolves.alike (mapped a member)⟩
  · intro b member
    obtain ⟨a,there,is⟩ := exists_of_mem_right each (sorted.mem_iff.mp member)
    obtain ⟨contract,resolves⟩ := resolveComponent_ok.mp is
    exact ⟨a,there,resolves.alike (mapped a there)⟩
  · exact distinct
  · refine (sorted.map ComponentSpec.id).nodup_iff.mpr ?_
    rw [ids]
    exact distinct

theorem resolved_advertised (resolved : resolveEffectiveCell cell catalog = .ok effective) :
    ∀ target ∈ cell.components, ∀ profile, ProcessorProfile.forImplementation target.implementation = some profile →
      (profile.advertisedMethods target).isSome := by
  intro target member profile profiled
  obtain ⟨components,each,_⟩ := resolveEffectiveCell_ok.mp resolved
  obtain ⟨_,_,is⟩ := exists_of_mem_left each member
  obtain ⟨contract,resolves⟩ := resolveComponent_ok.mp is
  exact resolves.advertised profiled

section
variable (mapped : ∀ component ∈ cell.components, Mapped component)
  (resolved : resolveEffectiveCell cell catalog = .ok effective)
include mapped resolved

/-- Every component of the effective cell resolves to itself. -/
theorem effective_resolves :
    ∀ component ∈ effective.components, ∃ contract, Resolves catalog contract component component := by
  obtain ⟨components,each,rfl⟩ := resolveEffectiveCell_ok.mp resolved
  have sorted : (canonical cell components).components.Perm components := List.perm_insertionSort _ _
  intro b member
  obtain ⟨a,there,is⟩ := exists_of_mem_right each (sorted.mem_iff.mp member)
  obtain ⟨contract,resolves⟩ := resolveComponent_ok.mp is
  exact ⟨contract,resolves.again (mapped a there)⟩

/-- Resolving the effective cell changes nothing. -/
theorem effective_again :
    resolveEffectiveCell effective catalog = .ok effective := by
  have itself := effective_resolves mapped resolved
  obtain ⟨components,each,rfl⟩ := resolveEffectiveCell_ok.mp resolved
  refine resolveEffectiveCell_ok.mpr ⟨(canonical cell components).components,?_,?_⟩
  · rw [List.forall₂_same]
    exact fun b member => resolveComponent_ok.mpr (itself b member)
  · have byId : Std.Total fun a b : ComponentSpec => a.id ≤ b.id := ⟨fun a b => le_total a.id b.id⟩
    have byId' : IsTrans ComponentSpec fun a b => a.id ≤ b.id := ⟨fun _ _ _ => le_trans⟩
    have byKey : Std.Total fun a b : LinkSpec => linkKey a ≤ linkKey b := ⟨fun a b => le_total (linkKey a) (linkKey b)⟩
    have byKey' : IsTrans LinkSpec fun a b => linkKey a ≤ linkKey b := ⟨fun _ _ _ => le_trans⟩
    have components := (List.pairwise_insertionSort (fun a b : ComponentSpec => a.id ≤ b.id) components).insertionSort_eq
    have links := (List.pairwise_insertionSort (fun a b : LinkSpec => linkKey a ≤ linkKey b) cell.links).insertionSort_eq
    simp only [canonical,components,links]
end

/-! ### The lock -/

variable {digestJson : Json → String} {lock : ResolvedLock}

/-- The lock of an effective cell. -/
def lockOf (digestJson : Json → String) (effective : CellSpec) (catalog : CatalogResponse) :
    Except String ResolvedLock := do
  let entries ← effective.components.mapM (lockEntry digestJson effective catalog)
  let entries := entries.insertionSort fun a b => a.componentId ≤ b.componentId
  return ⟨lockApiVersion,digestJson (Json.array (entries.map LockEntry.json)),entries⟩

/-- The lock is read off the effective cell. -/
theorem resolveLock_ok : resolveLock digestJson cell catalog = .ok lock ↔ (validateCell cell).valid = true ∧
    ∃ effective, resolveEffectiveCell cell catalog = .ok effective ∧ lockOf digestJson effective catalog = .ok lock := by
  simp only [resolveLock,lockOf,bind_ok,ensure_ok,exists_const]

theorem Spells.resolved_eq {a s b b' : ComponentSpec} (spells : Spells a s) (mapped : Mapped a)
    (resolved : resolveComponent catalog a = .ok b) (resolved' : resolveComponent catalog s = .ok b') : b' = b := by
  obtain ⟨contract,resolves⟩ := resolveComponent_ok.mp resolved
  obtain ⟨contract',resolves'⟩ := resolveComponent_ok.mp resolved'
  have implementation : a.implementation = s.implementation := by rw [spells.rest]
  have id : s.id = a.id := by rw [spells.rest]
  cases resolves.unique resolves' implementation
  rw [resolves.is,resolves'.is]
  have config : (contract.effective s).config = (contract.effective a).config := by
    refine Entries.Sorted.ext (effective_mapped spells.mapped) (effective_mapped mapped) fun name => ?_
    have left := get_effective resolves.installed spells.mapped name
    have right := get_effective resolves.installed mapped name
    simp only [ComponentSpec.get] at left right
    rw [left,right,id]
    obtain same | ⟨omitted,found,known,written⟩ := spells.settings name
    · simp only [ComponentSpec.get] at same
      rw [same]
    · rw [resolves.found] at known
      cases known
      simp only [ComponentSpec.get] at omitted written
      rw [omitted,written,Option.or_self,Option.none_or]
  have whole : ∀ component : ComponentSpec,
      contract.effective component = { component with config := (contract.effective component).config } := fun _ => rfl
  rw [whole s,whole a,config]
  conv_lhs => rw [spells.rest]

/-! ### Other spellings -/

theorem spelled_eq {authored spelled components components' : List ComponentSpec}
    (spells : List.Forall₂ Spells authored spelled) (mapped : ∀ component ∈ authored, Mapped component)
    (each : List.Forall₂ (fun a b => resolveComponent catalog a = .ok b) authored components)
    (each' : List.Forall₂ (fun a b => resolveComponent catalog a = .ok b) spelled components') :
    components' = components := by
  induction spells generalizing components components' with
  | nil =>
    cases each
    cases each'
    rfl
  | cons spell _ ih =>
    cases each with
    | cons resolved rest =>
      cases each' with
      | cons resolved' rest' =>
        rw [spell.resolved_eq (mapped _ List.mem_cons_self) resolved resolved',
          ih (fun component member => mapped component (List.mem_cons_of_mem _ member)) rest rest']

theorem links_distinct (clean : CellClean cell) : cell.links.Pairwise fun a b => a.id ≠ b.id :=
  (validateLinks_clean.mp clean.links).2.imp fun apart => apart.id

/-- Two spellings of a cell that both resolve have one effective cell. -/
theorem Rewrites.effective_eq {effective' : CellSpec} (rewrites : Rewrites cell other) (clean : CellClean cell)
    (mapped : ∀ component ∈ cell.components, Mapped component)
    (resolved : resolveEffectiveCell cell catalog = .ok effective)
    (resolved' : resolveEffectiveCell other catalog = .ok effective') : effective' = effective := by
  obtain ⟨components,each,rfl⟩ := resolveEffectiveCell_ok.mp resolved
  obtain ⟨components',each',rfl⟩ := resolveEffectiveCell_ok.mp resolved'
  obtain ⟨spelled,spells,perm⟩ := rewrites.components
  obtain ⟨ordered,each'',perm'⟩ := List.perm_comp_forall₂ perm each'
  cases spelled_eq spells mapped each each''
  refine (canonical_eq rewrites.rest perm' ?_ rewrites.links (links_distinct clean)).symm
  rw [resolved_ids each]
  exact (validateComponents_clean.mp clean.components).2

theorem Permutes.rearranged (permutes : Permutes cell other) (distinct : cell.ids.Nodup) : Rearranged cell other where
  apiVersion := by rw [permutes.rest]
  name := by rw [permutes.rest]
  policy := by rw [permutes.rest]
  links := permutes.links
  count := permutes.components.length_eq
  forth a member := ⟨a,permutes.components.mem_iff.mp member,.refl a⟩
  back b member := ⟨b,permutes.components.mem_iff.mpr member,.refl b⟩
  distinct := distinct
  distinct' := (permutes.components.map _).nodup_iff.mp distinct

/-- A cell in another order has the effective cell and the lock of the first. -/
theorem Permutes.locked (permutes : Permutes cell other) (locked : resolveLock digestJson cell catalog = .ok lock)
    (resolved : resolveEffectiveCell cell catalog = .ok effective) :
    resolveEffectiveCell other catalog = .ok effective ∧ resolveLock digestJson other catalog = .ok lock := by
  obtain ⟨valid,effective',resolved',lockedOf⟩ := resolveLock_ok.mp locked
  cases resolved.symm.trans resolved'
  have clean := validateCell_valid.mp valid
  have distinct := (validateComponents_clean.mp clean.components).2
  have again : resolveEffectiveCell other catalog = .ok effective := by
    obtain ⟨components,each,rfl⟩ := resolveEffectiveCell_ok.mp resolved
    obtain ⟨components',each',perm⟩ := List.perm_comp_forall₂ permutes.components.symm each
    refine resolveEffectiveCell_ok.mpr ⟨components',each',?_⟩
    refine canonical_eq permutes.rest perm.symm ?_ permutes.links (links_distinct clean)
    rw [resolved_ids each]
    exact distinct
  have rearranged := permutes.rearranged distinct
  have fits : Fits other := by
    intro component member
    have here := (validateComponents_clean.mp clean.components).1 component (permutes.components.mem_iff.mpr member)
    rw [← rearranged.policy]
    exact here.size
  have clean' := clean.rearranged rearranged (resolved_advertised resolved) fits
  exact ⟨again,resolveLock_ok.mpr ⟨validateCell_valid.mpr clean',effective,again,lockedOf⟩⟩

/-- A cell written otherwise has the effective cell and the lock of the first, if it has any. -/
theorem Rewrites.locked (rewrites : Rewrites cell other) (mapped : ∀ component ∈ cell.components, Mapped component)
    (locked : resolveLock digestJson cell catalog = .ok lock)
    (resolved : resolveEffectiveCell cell catalog = .ok effective) (accepted : Accepted digestJson catalog other) :
    resolveEffectiveCell other catalog = .ok effective ∧ resolveLock digestJson other catalog = .ok lock := by
  obtain ⟨valid,effective',resolved',lockedOf⟩ := resolveLock_ok.mp locked
  cases resolved.symm.trans resolved'
  obtain ⟨lock',locked'⟩ := accepted
  obtain ⟨_,effective',resolved',lockedOf'⟩ := resolveLock_ok.mp locked'
  cases rewrites.effective_eq (validateCell_valid.mp valid) mapped resolved resolved'
  cases lockedOf.symm.trans lockedOf'
  exact ⟨resolved',locked'⟩

end

/-! ### An identity provider, written in two ways -/

def lifespan : String := "access_token_lifespan_seconds"

/-- The identity cell the other way round, with the default of a setting written out. -/
def spelledCell : CellSpec :=
  { identityCell none with
    components := [accounts,⟨"identity",.identityProvider,"keycloak",none,"keycloak/25/v1",.cell,[(lifespan,.num "300")]⟩] }

theorem spelled_mapped : ∀ component ∈ (identityCell none).components ++ spelledCell.components, Mapped component := by
  intro component member
  simp only [identityCell,spelledCell,List.cons_append,List.nil_append,List.mem_cons,List.not_mem_nil,or_false] at member
  rcases member with rfl | rfl | rfl | rfl <;> simp [Mapped,Entries.Sorted,accounts]

theorem spelled_rewrites : Rewrites (identityCell none) spelledCell where
  rest := rfl
  components := by
    refine ⟨spelledCell.components.reverse,.cons ⟨rfl,spelled_mapped _ (by simp [spelledCell]),fun name => ?_⟩
      (.cons ⟨rfl,spelled_mapped _ (by simp [spelledCell]),fun _ => .inl rfl⟩ .nil),List.reverse_perm _⟩
    by_cases here : name = lifespan
    · subst here
      exact .inr ⟨rfl,keycloak,rfl,by decide +kernel⟩
    · left
      have apart : (name == lifespan) = false := by simpa using here
      simp [ComponentSpec.get,List.lookup_cons,apart]
  links := .refl _

/-- The identity cell under a policy that its empty configurations just meet. -/
def crampedCell : CellSpec := { identityCell none with policy := ⟨[],⟨none,none,some 2⟩⟩ }

end Proofstorm.Publication
