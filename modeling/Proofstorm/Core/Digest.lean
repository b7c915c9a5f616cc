import Mathlib.Algebra.GroupWithZero.Nat
import Proofstorm.Core.Model

/-!
What the store calls and this model does not open: the digest of a document and
the functions of `proofstorm-core` that validate and resolve cells. They are
parameters, so that every result holds of any digest and any catalog; a result
that needs more of them says so.
-/
namespace Proofstorm.Core

/-- The documents that the store digests. A tuple is serialized as an array of
    its entries, so tuples of one shape share a constructor. -/
inductive Digestible
  | json (value : Json)
  | publication (workspace : String) (cell : CellSpec) (lock : ResolvedLock)
  | cell (cell : CellSpec)
  | plan (plan : CellUpdatePlan)
  | preview (preview : CellPreview)
  | nonce (workspace : String) (name : String) (nonce : String)
  | handle (workspace : String) (name : String) (generation : Nat) (nonce : String)
  | run (workspace : String) (instanceKey : String) (principal : String) (ordinal : Nat)
  | context (workspace : String) (principal : String) (experiment : String) (contextId : String)
  | interval (requested : String) (context : String) (generation : Nat)
  | observation (workspace : String) (instanceId : String) (instanceKey : String) (counts : List Int)
  | operation (workspace : String) (instanceId : String) (session : String) (operation : String)
      (kind : OperationKind) (request : Json)
  deriving DecidableEq

/-- A workspace's catalog: the built-in releases and its successful candidates. -/
structure Catalog where
  document : Json
  deriving DecidableEq

class CoreFunctions where
  /-- `digest_json`: `sha256:` and 64 hexadecimal digits. -/
  digestJson : Digestible → String
  /-- The issues that `validate_cell` reports, or nothing where the cell is valid. -/
  validateCell : CellSpec → Option String
  effectiveCatalog : List CandidateBuild → Except String Catalog
  resolveEffectiveCell : CellSpec → Catalog → Except String CellSpec
  resolveLock : CellSpec → Catalog → Except String ResolvedLock
  validateNewCellVersions : CellSpec → Catalog → Except String Unit
  /-- `WorkspaceEvidence::validate`. -/
  validateEvidence : WorkspaceEvidence → Except String Unit
  /-- The digest of the receive command that a request approves, where it is valid. -/
  receiveCommandDigest : Json → Option String
  /-- Whether an installed release of this implementation and version was built from a candidate. -/
  baseRelease : String → String → Option Bool
  /-- `CandidateProvenance::validate`. -/
  provenanceValid : CandidateProvenance → Bool
  /-- The provenance agrees with the base release, the profile and the source it names. -/
  provenanceConsistent : CandidateBuild → CandidateProvenance → Bool
  /-- The length of a document in bytes, as `serde_json` writes it. -/
  byteLength : Json → Nat
  cellJson : CellSpec → Json
  lockJson : ResolvedLock → Json

export CoreFunctions (digestJson)

/-- `&text[from..until]`. -/
def slice (text : String) (start stop : Nat) : String := .ofList ((text.toList.take stop).drop start)

section
variable [CoreFunctions]

/-- `publication_digest`. -/
def publicationDigest (workspace : String) (cell : CellSpec) (lock : ResolvedLock) : String :=
  digestJson (.publication workspace cell lock)

/-- A revision as `publish` builds it: its digest is that of its contents. -/
def PublishedRevision.Genuine (revision : PublishedRevision) : Prop :=
  revision.digest = publicationDigest revision.workspaceId revision.cell revision.lock

end

/-! ### Functions to evaluate runs with -/

mutual
/-- The texts of a document, in order. -/
def Json.words : Json → List String
  | .null => ["null"]
  | .bool value => [if value then "true" else "false"]
  | .num text => ["num",text]
  | .str text => ["str",text]
  | .arr items => "[" :: items.words
  | .obj fields => "(" :: fields.words
def Items.words : Items → List String
  | .nil => ["]"]
  | .cons head tail => head.words ++ tail.words
def Fields.words : Fields → List String
  | .nil => [")"]
  | .cons key value tail => key :: value.words ++ tail.words
end

def ComponentSpec.words (component : ComponentSpec) : List String :=
  component.id :: component.implementation :: component.version.toList ++
    component.config.flatMap fun entry => entry.1 :: entry.2.words

def CellSpec.words (cell : CellSpec) : List String := cell.name :: cell.components.flatMap ComponentSpec.words

def CellUpdatePlan.words (plan : CellUpdatePlan) : List String :=
  [plan.target.instanceId,toString plan.target.expectedGeneration,toString plan.target.deleteData] ++
    plan.target.deleteRetained ++ plan.changes.added ++ plan.changes.removed

/-- The texts that tell the documents of a kind apart. -/
def Digestible.words (document : Digestible) : List String :=
  match document with
  | .json value => "json" :: value.words
  | .publication workspace spec _ => "publication" :: workspace :: spec.words
  | .cell spec => "cell" :: spec.words
  | .plan update => "plan" :: update.words
  | .preview shown => "preview" :: shown.id :: shown.name :: shown.cell.words ++
      shown.update.toList.flatMap CellUpdatePlan.words
  | .nonce workspace name random => ["nonce",workspace,name,random]
  | .handle workspace name generation random => ["handle",workspace,name,toString generation,random]
  | .run workspace instanceKey principal ordinal => ["run",workspace,instanceKey,principal,toString ordinal]
  | .context workspace principal experiment contextId => ["context",workspace,principal,experiment,contextId]
  | .interval requested outer generation => ["interval",requested,outer,toString generation]
  | .observation workspace instanceId instanceKey counts =>
    "observation" :: workspace :: instanceId :: instanceKey :: counts.map toString
  | .operation workspace instanceId session id _ request =>
    "operation" :: workspace :: instanceId :: session :: id :: request.words

/-- A digest in the place of that of `digest_json`: a polynomial in the
    characters, in eight hexadecimal digits. -/
def sampleDigest (words : List String) : String :=
  let characters := words.flatMap fun word => word.toList ++ ['/']
  let value := characters.foldl (fun sum character => (sum * 1000003 + character.toNat) % 2^32) 7
  "sha256:" ++ .ofList ((List.range 8).map fun place => Nat.digitChar (value / 16^place % 16))

/-- Functions in the place of those of `proofstorm-core`, under which cells are
    valid and resolve to themselves. -/
@[reducible] def CoreFunctions.sample : CoreFunctions where
  digestJson document := sampleDigest document.words
  validateCell _ := none
  effectiveCatalog _ := .ok ⟨.null⟩
  resolveEffectiveCell cell _ := .ok cell
  resolveLock cell _ := .ok
    { apiVersion := "proofstorm/lock/v2alpha1"
      digest := sampleDigest ("lock" :: cell.words)
      entries := cell.components.map fun component =>
        ⟨component.id,component.implementation,component.version.getD "",sampleDigest component.words,
          component.implementation,none,.null⟩ }
  validateNewCellVersions _ _ := .ok ()
  validateEvidence _ := .ok ()
  receiveCommandDigest _ := none
  baseRelease _ _ := none
  provenanceValid _ := false
  provenanceConsistent _ _ := false
  byteLength document := (document.words.map String.length).sum
  cellJson cell := .object [("name",.str cell.name)]
  lockJson lock := .object [("digest",.str lock.digest)]

/-- A cell of Bitcoin nodes with the given ids. -/
def sampleCell (ids : List String) : CellSpec :=
  { apiVersion := "proofstorm/v1alpha1"
    name := "edit-test"
    components := ids.map fun id => ⟨id,.bitcoin,"bitcoin-core",some "31.1","bitcoin-core/31/v1",.cell,[]⟩
    links := []
    policy := ⟨[],⟨none,none,none⟩⟩ }
end Proofstorm.Core
