import Proofstorm.Interleaving
import Proofstorm.Ordered
import Proofstorm.Outcome

/-!
The identities that are bound to the storage of their component: the seeds of the
Bark and Spark processors and of the Open SSP, and the TLS files of the Bark stack.
A pass of the controller ensures each of them and then applies the stateful sets
(`apply`); the claim `data-{component}-0` comes into existence from its stateful
set. What a call draws at random and what the certificate library returns to it
(`Draw`) is part of the call, and `Bip39` is the mnemonic library.
-/
namespace Proofstorm.Identities
open Proofstorm.Interleaving

abbrev Data := BTreeMap String String

/-- A Secret as it is rendered. -/
structure Template where
  name : String
  labels : Data
  stringData : Option Data

/-- A Secret as the server keeps it. -/
structure Secret where
  name : String
  data : Option Data

/-- The objects of the namespace of one cell. -/
structure Cluster where
  secrets : String → Option Secret
  statefulSets : List String
  claims : List String

inductive Failure
  | conflict | notFound | unavailable
  | secretContract (message : String)

inductive Statement
  | create (secret : Secret)
  | delete (name : String)
  | apply (statefulSet : String)
  /-- The claim of the first pod of a stateful set. -/
  | provision (statefulSet : String)

@[reducible] def Statement.Answer (_ : Statement) : Type := Unit

def claimName (component : String) : String := s!"data-{component}-0"

def execute (statement : Statement) (cluster : Cluster) : Except Failure (statement.Answer × Cluster) :=
  match statement with
  | .create secret => do
    ensure (cluster.secrets secret.name = none) .conflict
    pure ((),{ cluster with secrets := Function.update cluster.secrets secret.name (some secret) })
  | .delete name => do
    ensure (cluster.secrets name ≠ none) .notFound
    pure ((),{ cluster with secrets := Function.update cluster.secrets name none })
  | .apply statefulSet => .ok ((),{ cluster with statefulSets := statefulSet :: cluster.statefulSets })
  | .provision statefulSet => do
    ensure (statefulSet ∈ cluster.statefulSets) .notFound
    pure ((),{ cluster with claims := claimName statefulSet :: cluster.claims })

abbrev Program := Fallible Cluster Statement Failure Statement.Answer

/-- The mnemonic library. -/
structure Bip39 where
  /-- `Mnemonic::from_entropy` and `to_string`. -/
  fromEntropy : List UInt8 → Option String
  /-- Whether a text parses as a `Mnemonic`. -/
  parses : String → Bool

/-- The PEM texts that the certificate library returns. -/
structure Certificates where
  ca : String
  caKey : String
  server : String
  serverKey : String
  client : String
  clientKey : String

/-- What one call gets from the random source and the certificate library. -/
structure Draw where
  entropy : Except String (List UInt8)
  token : Except String (List UInt8)
  certificates : Except String Certificates

/-! ### Generated Secrets -/

/-- `validate`. -/
def validate (existing : Secret) (required : List String) : Except Failure Unit :=
  match existing.data with
  | none => .error (.secretContract s!"Secret {existing.name.quote} has no generated data")
  | some data => required.forM fun key =>
    ensure (key ∈ data) (.secretContract s!"Secret {existing.name.quote} is missing key {key.quote}")

/-- `component_name`. -/
def componentName (template : Template) : Except Failure String :=
  require template.labels["proofstorm.dev/component"]?
    (.secretContract s!"Secret template {template.name.quote} has no component identity")

def randomBytes (drawn : Except String (List UInt8)) (name : String) : Except Failure (List UInt8) :=
  drawn.mapError fun error => .secretContract s!"could not generate credentials for {name.quote}: {error}"

def hex (bytes : List UInt8) : String :=
  String.ofList (bytes.flatMap fun byte => [Nat.digitChar (byte.toNat / 16),Nat.digitChar (byte.toNat % 16)])

/-- `ensure_generated_secret_with`. -/
def ensureGeneratedSecretWith (template : Template) (generate : Except Failure Data)
    (check : Secret → Except Failure Unit) : Program Unit := do
  match ← query fun cluster => .ok (cluster.secrets template.name) with
  | some existing => settle (check existing)
  | none =>
    let generated ← settle generate
    let desired := (template.stringData.getD ∅).insertMany generated.toList
    -- Create, never apply: concurrent reconcilers must not rotate each other's credentials.
    match ← attempt (submit (.create ⟨template.name,some desired⟩)) with
    | .ok _ => pure ()
    | .error .conflict =>
      let existing ← query fun cluster => require (cluster.secrets template.name) .notFound
      settle (check existing)
    | .error error => throw error

/-! ### Owned identities -/

structure Identity where
  kind : String
  label : String
  required : List String

def identities : List Identity :=
  [⟨"bark-processor","Bark",["PROOFSTORM_SECRET_KIND","mnemonic"]⟩,
    ⟨"open-ssp","Open SSP",["PROOFSTORM_SECRET_KIND","mnemonic","admin-token"]⟩,
    ⟨"spark-processor","Spark processor",["PROOFSTORM_SECRET_KIND","mnemonic"]⟩]

def identity (kind : String) : Option Identity := identities.find? fun identity => identity.kind = kind

section
variable (bip39 : Bip39)

def Identity.generate (identity : Identity) (draw : Draw) (name : String) : Except Failure Data := do
  let entropy ← randomBytes draw.entropy name
  let mnemonic ← require (bip39.fromEntropy entropy) (.secretContract s!"could not encode {identity.label} mnemonic")
  let data : Data := (∅ : Data).insert "mnemonic" mnemonic
  if "admin-token" ∈ identity.required then
    pure (data.insert "admin-token" (hex (← randomBytes draw.token name)))
  else pure data

-- The characters of the token are checked one by one.
attribute [local instance (1100)] List.decidableBAll

def Identity.validate (identity : Identity) (secret : Secret) : Except Failure Unit := do
  Identities.validate secret identity.required
  let data := secret.data.getD ∅
  let token := data.getD "admin-token" ""
  ensure (¬ (data.getD "PROOFSTORM_SECRET_KIND" "" ≠ identity.kind ∨ bip39.parses (data.getD "mnemonic" "") = false ∨
      ("admin-token" ∈ identity.required ∧ (token.utf8ByteSize ≠ 64 ∨
        ¬ ∀ c ∈ token.toList, '0' ≤ c ∧ c ≤ '9' ∨ 'a' ≤ c ∧ c ≤ 'f'))))
    (.secretContract s!"{identity.label} identity Secret has invalid data; refusing replacement")

/-- `ensure` of an owned identity. -/
def ensureOwnedIdentity (template : Template) (draw : Draw) : Program Unit := do
  let name := template.name
  let identity ← settle (require ((template.stringData.bind fun data => data["PROOFSTORM_SECRET_KIND"]?).bind identity)
    (.secretContract s!"Secret template {name.quote} is not an owned-storage identity"))
  match ← query fun cluster => .ok (cluster.secrets name) with
  | some existing => settle (identity.validate bip39 existing)
  | none =>
    let component ← settle (componentName template)
    if ← query fun cluster => .ok (decide (claimName component ∈ cluster.claims)) then
      -- Another reconciler can have created the seed and then its claim after the first read.
      match ← query fun cluster => .ok (cluster.secrets name) with
      | some existing => settle (identity.validate bip39 existing)
      | none => throw (.secretContract s!"{identity.label} identity Secret {name.quote} is missing while owned storage exists; restore the identity instead of regenerating it")
    else ensureGeneratedSecretWith template (identity.generate bip39 draw name) (identity.validate bip39)
end

/-! ### TLS identities of the Bark stack -/

/-- `KIND`. -/
def managementKind : String := "mint-management-tls"

/-- `KEYS`. -/
def keys : List String := ["ca.pem","server.pem","server.key","client.pem","client.key"]

/-- `template_identity`. -/
def templateIdentity (template : Template) : Except Failure (String × Option String) := do
  let data ← require template.stringData (.secretContract "TLS template data missing")
  let kind := data.getD "PROOFSTORM_SECRET_KIND" managementKind
  let serverName := data["PROOFSTORM_TLS_SERVER_NAME"]?
  ensure (¬ (kind ∈ ["payment-processor-tls","bark-cln-tls","bark-hold-tls"] ∧ serverName = none))
    (.secretContract "Payment processor TLS requires a service DNS identity")
  pure (kind,serverName)

/-- `generate_for`. -/
def generateFor (draw : Draw) (kind : String) (serverName : Option String) : Except Failure Data := do
  let drawn ← draw.certificates.mapError fun error =>
    .secretContract s!"could not generate management TLS identities: {error}"
  let data : Data := ((∅ : Data).insert "PROOFSTORM_SECRET_KIND" kind).insert "ca.pem" drawn.ca
  let data := if kind ∈ ["bark-cln-tls","bark-hold-tls"] then data.insert "ca.key" drawn.caKey else data
  let data := match serverName with
    | some name => data.insert "PROOFSTORM_TLS_SERVER_NAME" name
    | none => data
  pure (data.insertMany [("server.pem",drawn.server),("server.key",drawn.serverKey),("client.pem",drawn.client),
    ("client.key",drawn.clientKey)])

/-- `validate_for`. -/
def validateFor (secret : Secret) (kind : String) (serverName : Option String) : Except Failure Unit := do
  let data ← require secret.data (.secretContract "management TLS Secret has no data")
  ensure (¬ (data["PROOFSTORM_SECRET_KIND"]? ≠ some kind ∨
      (serverName ≠ none ∧ data["PROOFSTORM_TLS_SERVER_NAME"]? ≠ serverName) ∨
      (∃ key ∈ keys, data.getD key "" = "") ∨ (kind ∈ ["bark-cln-tls","bark-hold-tls"] ∧ data.getD "ca.key" "" = "")))
    (.secretContract s!"management TLS Secret {secret.name.quote} is incomplete; refusing to replace existing identities")

/-- `ensure_identity`. -/
def ensureIdentity (template : Template) (draw : Draw) : Program Unit := do
  let (kind,serverName) ← settle (templateIdentity template)
  match ← query fun cluster => .ok (cluster.secrets template.name) with
  | some existing => settle (validateFor existing kind serverName)
  | none =>
    let desired ← settle (generateFor draw kind serverName)
    match ← attempt (submit (.create ⟨template.name,some desired⟩)) with
    | .ok _ => pure ()
    | .error .conflict =>
      let existing ← query fun cluster => require (cluster.secrets template.name) .notFound
      settle (validateFor existing kind serverName)
    | .error error => throw error

def ensureBark (template : Template) (draw : Draw) : Program Unit := do
  let name := template.name
  let component ← settle (require template.labels["proofstorm.dev/component"]?
    (.secretContract "Bark TLS component identity missing"))
  let (kind,serverName) ← settle (templateIdentity template)
  if kind ∈ ["bark-cln-tls","bark-hold-tls"] then
    match ← query fun cluster => .ok (cluster.secrets name) with
    -- A second read through the creation path could regenerate it after concurrent deletion.
    | some existing => settle (validateFor existing kind serverName)
    | none =>
      if ← query fun cluster => .ok (decide (claimName component ∈ cluster.claims)) then
        match ← query fun cluster => .ok (cluster.secrets name) with
        | some existing => settle (validateFor existing kind serverName)
        | none => throw (.secretContract "Bark TLS identity is missing while owned storage exists; restore the original Secret")
      else ensureIdentity template draw
  else throw (.secretContract "Bark TLS template kind mismatch")

/-! ### Passes -/

/-- What the Secret of an identity is for. -/
inductive Role
  | barkProcessor | openSsp | sparkProcessor | cln | hold
  deriving DecidableEq

def Role.kind : Role → String
  | .barkProcessor => "bark-processor"
  | .openSsp => "open-ssp"
  | .sparkProcessor => "spark-processor"
  | .cln => "bark-cln-tls"
  | .hold => "bark-hold-tls"

def Role.suffix : Role → String
  | .barkProcessor | .openSsp | .sparkProcessor => "-identity"
  | .cln => "-cln-tls"
  | .hold => "-hold-tls"

/-- An identity of a component, bound to the claim of the component. -/
structure Binding where
  component : String
  role : Role
  deriving DecidableEq

def Binding.name (binding : Binding) : String := binding.component ++ binding.role.suffix

/-- The Secret as the adapter of the component renders it. -/
def Binding.template (binding : Binding) : Template where
  name := binding.name
  labels := (∅ : Data).insert "proofstorm.dev/component" binding.component
  stringData :=
    let data : Data := (∅ : Data).insert "PROOFSTORM_SECRET_KIND" binding.role.kind
    match binding.role with
    | .cln | .hold => some (data.insert "PROOFSTORM_TLS_SERVER_NAME" binding.component)
    | _ => some data

section
variable (bip39 : Bip39)

/-- The step of `apply` for one Secret. -/
def ensureSecret (resource : Template) (draw : Draw) : Program Unit :=
  match resource.stringData.bind fun data => data["PROOFSTORM_SECRET_KIND"]? with
  | some kind =>
    if kind ∈ ["bark-processor","open-ssp","spark-processor"] then ensureOwnedIdentity bip39 resource draw
    else if kind ∈ ["bark-cln-tls","bark-hold-tls"] then ensureBark resource draw
    -- A Secret of another kind is bound to no storage.
    else pure ()
  | none => pure ()

/-- The part of `apply` that ensures the Secrets and applies the stateful sets. -/
def apply (secrets : List (Binding × Draw)) (statefulSets : List String) : Program Unit := do
  secrets.forM fun (binding,draw) => ensureSecret bip39 binding.template draw
  statefulSets.forM fun statefulSet => submit (.apply statefulSet)

inductive Request
  | reconcile (secrets : List (Binding × Draw)) (statefulSets : List String)
  | delete (name : String)
  | provision (statefulSet : String)

def code : Request → Call Cluster Statement Failure Statement.Answer (Except Failure Unit)
  | .reconcile secrets statefulSets => (apply bip39 secrets statefulSets).run
  | .delete name => (submit (.delete name) : Program Unit).run
  | .provision statefulSet => (submit (.provision statefulSet) : Program Unit).run
end

def emptyCluster : Cluster := ⟨fun _ => none,[],[]⟩
end Proofstorm.Identities
