import Proofstorm.Publication.Lock
import Proofstorm.Authoring.Clean
import Mathlib.Data.List.Pairwise
import Mathlib.Data.List.Lattice

/-!
The databases on a PostgreSQL server. A binding owns the database it is named for,
authored or derived from its component; the operators of a Spark federation each
make two databases of their own from the name of their link. Only the names of
links are checked against each other, and only the derived ones keep clear of what
else there is on the server.
-/
namespace Proofstorm.Publication
open Proofstorm.Core Validation

/-- A cell that publication accepts. -/
def Accepted (digestJson : Json → String) (catalog : CatalogResponse) (cell : CellSpec) : Prop :=
  ∃ lock, resolveLock digestJson cell catalog = .ok lock

instance (digestJson : Json → String) (catalog : CatalogResponse) (cell : CellSpec) :
    Decidable (Accepted digestJson catalog cell) :=
  match result : resolveLock digestJson cell catalog with
  | .ok lock => .isTrue ⟨lock,result⟩
  | .error _ => .isFalse fun ⟨lock,accepted⟩ => by rw [result] at accepted; cases accepted

variable {cell : CellSpec} {n operators : Nat} {c : Char} {word base : String} {link : LinkSpec}

theorem Accepted.clean {digestJson : Json → String} {catalog : CatalogResponse}
    (accepted : Accepted digestJson catalog cell) : CellClean cell := by
  obtain ⟨lock,resolved⟩ := accepted
  simp only [resolveLock,bind_ok,ensure_ok] at resolved
  obtain ⟨_,valid,_⟩ := resolved
  exact validateCell_valid.mp valid

/-! ### What a link owns -/

/-- The database that the server is started with. -/
def maintenanceDatabase : String := "postgres"

/-- `main=${base}_${ordinal}`. -/
def operatorDatabase (base : String) (ordinal : Nat) : String := base ++ "_" ++ ordinal.repr

def ephemeralDatabase (base : String) (ordinal : Nat) : String := operatorDatabase base ordinal ++ "_ephemeral"

/-- The databases of the first `operators` operators. -/
def operatorDatabases (base : String) (operators : Nat) : List String :=
  (List.range operators).flatMap fun ordinal => [operatorDatabase base ordinal,ephemeralDatabase base ordinal]

/-- The operators of a federation, as its effective configuration counts them. -/
def operatorCount (component : ComponentSpec) : Nat :=
  (((sparkOperatorsContract.effective component).get "operators").bind Json.asU64).getD 0

/-- The Spark federation that a link belongs to. -/
def federation (cell : CellSpec) (link : LinkSpec) : Option ComponentSpec :=
  cell.components.find? fun component => component.id == link.from && component.implementation == sparkOperators

/-- The databases that the component of a link creates or uses on the server of the link. -/
def ownedDatabases (cell : CellSpec) (link : LinkSpec) : List String :=
  match link.databaseName, federation cell link with
  | some base, some operators => operatorDatabases base (operatorCount operators)
  | some name, none => [name]
  | none, _ => []

/-- The database links to one component. -/
def databaseLinks (cell : CellSpec) (server : String) : List LinkSpec :=
  cell.links.filter fun link => link.to == server && link.kind == .databaseBackend

def postgresServers (cell : CellSpec) : List ComponentSpec :=
  cell.components.filter (·.implementation == "postgresql")

/-- Each database on a server has one owner, and none owns that of the server. -/
def OneOwner (cell : CellSpec) : Prop :=
  ∀ server ∈ postgresServers cell,
    (databaseLinks cell server.id).Pairwise (fun a b => List.Disjoint (ownedDatabases cell a) (ownedDatabases cell b)) ∧
    ∀ link ∈ databaseLinks cell server.id, maintenanceDatabase ∉ ownedDatabases cell link

/-- A database name that an author chose for a link. -/
def authoredName (link : LinkSpec) : Option String :=
  match link.binding with
  | some (.database _ database) => database
  | _ => none

/-- The names that authors chose for links outside of a federation keep clear of the
    server's own database and of those that a federation derives on that server. -/
def AuthoredApart (cell : CellSpec) : Prop :=
  ∀ server ∈ postgresServers cell, ∀ link ∈ databaseLinks cell server.id, federation cell link = none →
    ∀ name ∈ authoredName link, name ≠ maintenanceDatabase ∧
      ∀ other ∈ databaseLinks cell server.id, (federation cell other).isSome → name ∉ ownedDatabases cell other

attribute [local instance (1100)] instDecidableForall

instance (cell : CellSpec) : Decidable (AuthoredApart cell) := by
  unfold AuthoredApart
  infer_instance

/-! ### The last part of a name -/

/-- What follows the last underscore. -/
def lastPart (name : String) : List Char := (name.toList.reverse.takeWhile (· ≠ '_')).reverse

/-- What stands before the last underscore. -/
def front (name : String) : List Char := (name.toList.reverse.dropWhile (· ≠ '_')).tail.reverse

theorem lastPart_append (name : String) {suffix : String} (bare : '_' ∉ suffix.toList) :
    lastPart (name ++ "_" ++ suffix) = suffix.toList := by
  have plain : ∀ c ∈ suffix.toList.reverse, decide (c ≠ '_') = true := by
    intro c member
    rw [List.mem_reverse] at member
    exact decide_eq_true fun same => bare (same ▸ member)
  simp only [lastPart,String.toList_append,List.reverse_append]
  rw [List.takeWhile_append_of_pos plain]
  simp

theorem front_append {name suffix : String} (bare : '_' ∉ suffix.toList) :
    front (name ++ "_" ++ suffix) = name.toList := by
  have plain : ∀ c ∈ suffix.toList.reverse, decide (c ≠ '_') = true := by
    intro c member
    rw [List.mem_reverse] at member
    exact decide_eq_true fun same => bare (same ▸ member)
  simp only [front,String.toList_append,List.reverse_append]
  rw [List.dropWhile_append_of_pos plain]
  simp

theorem append_inj {a b s t : String} (left : '_' ∉ s.toList) (right : '_' ∉ t.toList)
    (same : a ++ "_" ++ s = b ++ "_" ++ t) : a = b ∧ s = t := by
  constructor
  · apply String.toList_inj.mp
    rw [← front_append left,same,front_append right]
  · apply String.toList_inj.mp
    rw [← lastPart_append _ left,same,lastPart_append _ right]

theorem repr_bare (n : Nat) : '_' ∉ n.repr.toList := by
  rw [Nat.toList_repr]
  exact Nat.underscore_not_in_toDigits

theorem role_bare (role : DatabaseRole) : '_' ∉ role.name.toList := by
  cases role <;> decide

theorem lastPart_maintenance : lastPart maintenanceDatabase = maintenanceDatabase.toList := by decide

theorem isDigit_of_repr (member : c ∈ n.repr.toList) : c.isDigit := by
  rw [Nat.toList_repr] at member
  exact Nat.isDigit_of_mem_toDigits (by decide) (by decide) member

/-- An ordinal is no word. -/
theorem repr_ne (head : c ∈ word.toList) (letter : c.isDigit = false) :
    n.repr ≠ word := by
  rintro rfl
  rw [isDigit_of_repr head] at letter
  cases letter

/-! ### Derived names keep apart -/

theorem mem_operatorDatabases {name : String}
    (member : name ∈ operatorDatabases base operators) :
    ∃ ordinal, name = operatorDatabase base ordinal ∨ name = ephemeralDatabase base ordinal := by
  rw [operatorDatabases,List.mem_flatMap] at member
  obtain ⟨ordinal,_,here⟩ := member
  rw [List.mem_pair] at here
  exact ⟨ordinal,here⟩

theorem ephemeral_shape (base : String) (ordinal : Nat) :
    ephemeralDatabase base ordinal = operatorDatabase base ordinal ++ "_" ++ "ephemeral" := by
  rw [ephemeralDatabase,String.append_assoc]
  rfl

theorem operatorDatabase_ne_ephemeral (base other : String) (i j : Nat) :
    operatorDatabase base i ≠ ephemeralDatabase other j := by
  rw [ephemeral_shape]
  intro same
  exact repr_ne (c := 'e') (by decide) (by decide) (append_inj (repr_bare i) (by decide) same).2

/-- Federations whose links have names of their own have databases of their own. -/
theorem operatorDatabases_disjoint {other : String} {m : Nat} (apart : base ≠ other) :
    List.Disjoint (operatorDatabases base m) (operatorDatabases other n) := by
  intro name left right
  obtain ⟨i,main | ephemeral⟩ := mem_operatorDatabases left
  · obtain ⟨j,main' | ephemeral'⟩ := mem_operatorDatabases right
    · exact apart (append_inj (repr_bare i) (repr_bare j) (main.symm.trans main')).1
    · exact operatorDatabase_ne_ephemeral base other i j (main.symm.trans ephemeral')
  · obtain ⟨j,main' | ephemeral'⟩ := mem_operatorDatabases right
    · exact operatorDatabase_ne_ephemeral other base j i (main'.symm.trans ephemeral)
    · rw [ephemeral_shape] at ephemeral ephemeral'
      have same := (append_inj (by decide) (by decide) (ephemeral.symm.trans ephemeral')).1
      exact apart (append_inj (repr_bare i) (repr_bare j) same).1

/-- A name that ends in a word of its own after the underscore is no operator's. -/
theorem not_mem_operatorDatabases {stem : String} (bare : '_' ∉ word.toList) {c : Char}
    (head : c ∈ word.toList) (letter : c.isDigit = false) (other : word ≠ "ephemeral") :
    stem ++ "_" ++ word ∉ operatorDatabases base operators := by
  intro member
  obtain ⟨ordinal,main | ephemeral⟩ := mem_operatorDatabases member
  · exact repr_ne head letter (append_inj bare (repr_bare ordinal) main).2.symm
  · rw [ephemeral_shape] at ephemeral
    exact other (append_inj bare (by decide) ephemeral).2

theorem maintenance_not_operator (base : String) (operators : Nat) :
    maintenanceDatabase ∉ operatorDatabases base operators := by
  intro member
  obtain ⟨ordinal,main | ephemeral⟩ := mem_operatorDatabases member
  · have part := lastPart_append base (repr_bare ordinal)
    rw [← operatorDatabase,← main,lastPart_maintenance] at part
    exact repr_ne (c := 'p') (by decide) (by decide) (String.toList_inj.mp part).symm
  · have part := lastPart_append (operatorDatabase base ordinal) (show '_' ∉ "ephemeral".toList by decide)
    rw [← ephemeral_shape,← ephemeral,lastPart_maintenance] at part
    exact absurd part (by decide)

theorem maintenance_ne_derived (stem : String) (role : DatabaseRole) : stem ++ "_" ++ role.name ≠ maintenanceDatabase := by
  intro same
  have part := lastPart_append stem (role_bare role)
  rw [same,lastPart_maintenance] at part
  cases role <;> exact absurd part (by decide)

theorem derived_not_operator (stem base : String) (role : DatabaseRole) (operators : Nat) :
    stem ++ "_" ++ role.name ∉ operatorDatabases base operators := by
  cases role with
  | primary => exact not_mem_operatorDatabases (by decide) (c := 'p') (by decide) (by decide) (by decide)
  | cache => exact not_mem_operatorDatabases (by decide) (c := 'c') (by decide) (by decide) (by decide)
  | authentication => exact not_mem_operatorDatabases (by decide) (c := 'a') (by decide) (by decide) (by decide)

/-! ### The databases of one server -/

theorem databaseName_of_authored {name : String} (authored : authoredName link = some name) :
    link.databaseName = some name := by
  unfold authoredName at authored
  unfold LinkSpec.databaseName
  split at authored
  · rename_i role database bound
    subst authored
    simp [bound]
  · cases authored

/-- A name that nobody authored is derived from the component and the role. -/
theorem databaseName_cases {name : String} (named : link.databaseName = some name) :
    authoredName link = some name ∨ ∃ stem role, name = stem ++ "_" ++ DatabaseRole.name role := by
  unfold LinkSpec.databaseName at named
  unfold authoredName
  split at named
  · rename_i role database bound
    cases database with
    | none =>
      right
      simp only [Option.getD_none,Option.some.injEq] at named
      exact ⟨_,role,named.symm⟩
    | some authored =>
      left
      simpa [bound] using named
  · cases named

theorem mem_ownedDatabases {name : String} (owned : name ∈ ownedDatabases cell link) :
    ∃ base, link.databaseName = some base ∧
      ((∃ operators, federation cell link = some operators ∧ name ∈ operatorDatabases base (operatorCount operators)) ∨
        federation cell link = none ∧ name = base) := by
  unfold ownedDatabases at owned
  split at owned
  · rename_i base operators named of
    exact ⟨base,named,.inl ⟨operators,of,owned⟩⟩
  · rename_i base named of
    exact ⟨base,named,.inr ⟨of,List.mem_singleton.mp owned⟩⟩
  · cases owned

/-- The authored name of a link outside of a federation keeps clear of another link. -/
def ClearOf (cell : CellSpec) (link other : LinkSpec) : Prop :=
  federation cell link = none → ∀ name, authoredName link = some name → (federation cell other).isSome →
    name ∉ ownedDatabases cell other

theorem not_mem_of_clear {other : LinkSpec} {name : String} (clear : ClearOf cell link other)
    (outside : federation cell link = none) (named : link.databaseName = some name) {operators : ComponentSpec}
    (of : federation cell other = some operators) : name ∉ ownedDatabases cell other := by
  obtain authored | ⟨stem,role,rfl⟩ := databaseName_cases named
  · exact clear outside name authored (by rw [of]; rfl)
  · intro owned
    obtain ⟨base,_,⟨operators',of',member⟩ | ⟨outside',_⟩⟩ := mem_ownedDatabases owned
    · exact derived_not_operator stem base role _ member
    · rw [of] at outside'
      cases outside'

/-- Two links whose names differ own no database in common, where what is authored
    keeps clear of the federations. -/
theorem owned_disjoint {a b : LinkSpec}
    (names : ∀ name, b.databaseName = some name → a.databaseName ≠ some name) (left : ClearOf cell a b)
    (right : ClearOf cell b a) : List.Disjoint (ownedDatabases cell a) (ownedDatabases cell b) := by
  intro name inA inB
  obtain ⟨base,named,⟨operators,of,member⟩ | ⟨outside,rfl⟩⟩ := mem_ownedDatabases inA
  · obtain ⟨base',named',⟨operators',of',member'⟩ | ⟨outside',rfl⟩⟩ := mem_ownedDatabases inB
    · have differ : base ≠ base' := fun same => names base' named' (same ▸ named)
      exact operatorDatabases_disjoint differ member member'
    · exact not_mem_of_clear right outside' named' of inA
  · obtain ⟨base',named',⟨operators',of',member'⟩ | ⟨outside',rfl⟩⟩ := mem_ownedDatabases inB
    · exact not_mem_of_clear left outside named of' inB
    · exact names name named' named

theorem maintenance_not_owned
    (clear : federation cell link = none → ∀ name, authoredName link = some name → name ≠ maintenanceDatabase) :
    maintenanceDatabase ∉ ownedDatabases cell link := by
  intro owned
  obtain ⟨base,named,⟨operators,of,member⟩ | ⟨outside,same⟩⟩ := mem_ownedDatabases owned
  · exact maintenance_not_operator base _ member
  · obtain authored | ⟨stem,role,shape⟩ := databaseName_cases named
    · exact clear outside base authored same.symm
    · exact maintenance_ne_derived stem role (shape.symm.trans same.symm)

/-- An accepted cell gives each database of its servers one owner exactly where the
    names that its authors chose keep apart. -/
theorem one_owner_iff {digestJson : Json → String} {catalog : CatalogResponse} {cell : CellSpec}
    (accepted : Accepted digestJson catalog cell) : OneOwner cell ↔ AuthoredApart cell := by
  have apart := (validateLinks_clean.mp accepted.clean.links).2
  constructor
  · intro owners server found link member outside name authored
    obtain ⟨disjoint,maintenance⟩ := owners server found
    have owns : name ∈ ownedDatabases cell link := by
      simp [ownedDatabases,databaseName_of_authored authored,outside]
    refine ⟨fun same => maintenance link member (same ▸ owns),fun other member' of owned => ?_⟩
    have differ : link ≠ other := by
      rintro rfl
      rw [outside] at of
      cases of
    have symmetric : Std.Symm fun a b => List.Disjoint (ownedDatabases cell a) (ownedDatabases cell b) :=
      ⟨fun _ _ apart => apart.symm⟩
    exact disjoint.forall member member' differ owns owned
  · intro authored server found
    have clear : ∀ a ∈ databaseLinks cell server.id, ∀ b ∈ databaseLinks cell server.id, ClearOf cell a b :=
      fun a left b right outside name chosen => (authored server found a left outside name chosen).2 b right
    constructor
    · refine (apart.filter _).imp_of_mem fun {a b} left right pair => ?_
      refine owned_disjoint (fun name named => ?_) (clear a left b right) (clear b right a left)
      have serves := (List.mem_filter.mp left).2
      have serves' := (List.mem_filter.mp right).2
      simp only [Bool.and_eq_true,beq_iff_eq] at serves serves'
      exact pair.databases.name name named (serves.1.trans serves'.1.symm) serves.2
    · intro link member
      exact maintenance_not_owned fun outside name chosen => (authored server found link member outside name chosen).1

/-! ### Keycloak beside its PostgreSQL server -/

/-- `digest_json`, with the document itself for its hash. -/
def documentDigest (document : Json) : String := "sha256:" ++ String.ofList document.write

def identityCatalog : CatalogResponse :=
  [catalogEntry keycloak "25.0.6"
      "quay.io/keycloak/keycloak@sha256:82c5b7a110456dbd42b86ea572e728878549954cc8bd03cd65410d75328095d2"
      "sha256:keycloak-schema" "sha256:keycloak-source" [.oidcProvider]
      [⟨.databaseBackend,"postgresql",["17.11"]⟩] ⟨[],[],[]⟩ [.cell],
    catalogEntry postgresql "17.11"
      "docker.io/library/postgres@sha256:18cfe3ef5e6815560c98237d6216d1e5119702fb0f3894c8785dd58b8bbe5d73"
      "sha256:postgresql-schema" "sha256:postgresql-source" [.nativeCli,.persistentState,.postgres] [] ⟨[],[],[]⟩
      [.cell]]

def identityLink (database : Option String) : LinkSpec :=
  ⟨"identity-database",.databaseBackend,"identity","accounts",some (.database .primary database)⟩

def accounts : ComponentSpec := ⟨"accounts",.database,"postgresql",none,"postgresql/17/v1",.cell,[]⟩

/-- An identity provider that keeps its accounts in a database of the given name. -/
def identityCell (database : Option String) : CellSpec :=
  { apiVersion := apiVersion
    name := "identity-cell"
    components := [⟨"identity",.identityProvider,"keycloak",none,"keycloak/25/v1",.cell,[]⟩,accounts]
    links := [identityLink database]
    policy := ⟨[],⟨none,none,none⟩⟩ }

theorem one_owner_iff_derived : OneOwner (identityCell none) :=
  (@one_owner_iff documentDigest identityCatalog _ (by decide +kernel)).mpr (by decide)

/-- Keycloak is bound to the database that the server is maintained through. -/
theorem maintenance_bound : Accepted documentDigest identityCatalog (identityCell (some "postgres")) ∧
    ¬ OneOwner (identityCell (some "postgres")) := by
  constructor
  · decide +kernel
  · intro owners
    have server : accounts ∈ postgresServers (identityCell (some "postgres")) := by decide
    exact (owners accounts server).2 (identityLink (some "postgres")) (by decide) (by decide)

end Proofstorm.Publication
