import Proofstorm.Startup.Volume
import Proofstorm.Core.Values
import Proofstorm.Core.Utf8
import Proofstorm.Authoring.Payments

/-!
The starts of the native components that own a volume, and the readiness check
that seals one of them: the Bark server, the paired CLN and hold node and the
Bark wallet processor. What a start finds outside its volume, in its environment
and in projected files, is its argument. `bip39` is what the parser of mnemonics
makes of a text.
-/
namespace Proofstorm.Startup
open Proofstorm.Upload (Bytes Hash)
open Proofstorm.Interleaving (Fallible settle attempt Call)
open Proofstorm.Core (Json PaymentMethod)
open Proofstorm.Validation (ProcessorProfile methodSet)

/-- The parser of mnemonics: the seed of a text in any language, and whether a
    normalized text is an English seed. -/
class Bip39 where
  parse : String → Option String
  parseInNormalized : String → Bool

/-- What a start finds in its environment. A projected file is a regular file behind links. -/
structure Surroundings where
  var : String → Option String
  projected : String → Option Bytes

def utf8 (text : String) : Bytes := Utf8.encode text.toList

/-- `with_context` of one operation. -/
def context (message : String) (operation : Operation) : Program operation.Answer := do
  match ← attempt (exec operation) with
  | .ok answer => pure answer
  | .error _ => throw (.refused message)

/-! ### Owned native state -/

/-- `read_bounded`, after the file is read. -/
def bounded (limit : Nat) (bytes : Option Bytes) : Except Failure Bytes := do
  let bytes ← require bytes (.refused "required file must be a regular file")
  ensure (bytes.length ≤ limit) (.refused "required file exceeds its size limit")
  pure bytes

def readBounded (path : Path) (limit : Nat) : Program Bytes := do
  let bytes ← context "read required file" (.read path limit)
  settle (bounded limit bytes)

/-- `read_bounded` of a projected file. -/
def readProjected (around : Surroundings) (path : String) (limit : Nat) : Except Failure Bytes := do
  let bytes ← require (around.projected path) (.refused "read required file")
  bounded limit (some bytes)

/-- `char::is_whitespace`. -/
def isWhitespace (c : Char) : Bool :=
  (9 ≤ c.toNat && c.toNat ≤ 13) || (0x2000 ≤ c.toNat && c.toNat ≤ 0x200A) ||
    [0x20,0x85,0xA0,0x1680,0x2028,0x2029,0x202F,0x205F,0x3000].contains c.toNat

/-- `str::trim`. -/
def trim (text : String) : String :=
  .ofList ((text.toList.dropWhile isWhitespace).reverse.dropWhile isWhitespace).reverse

section
variable [Bip39]

/-- `mnemonic`, after the file is read. -/
def parseMnemonic (bytes : Bytes) : Except Failure String := do
  let value ← require (Utf8.fromUtf8 bytes).toOption (.refused "mnemonic is not UTF-8")
  require (Bip39.parse (trim value)) (.refused "invalid mnemonic")

def mnemonic (path : Path) : Program String := do
  let bytes ← readBounded path 512
  settle (parseMnemonic bytes)
end

/-- The part of `write` between the temporary file and its name. -/
def fill (dir : Path) (drawn : String) (contents : Bytes) (name : String) (replace : Bool) : Program Unit := do
  exec (.writeTemp dir drawn contents)
  exec (.syncTemp dir drawn)
  if replace then context "replace runtime file" (.persist dir drawn contents name)
  else context "write native state once" (.persistNoclobber dir drawn contents name)

/-- `write` of a file in a directory. A temporary file that is not persisted is
    removed when it is dropped. -/
def writeIn (dir : Path) (name : String) (contents : Bytes) (replace : Bool) : Program Unit := do
  let drawn ← exec (.createTemp dir)
  match ← attempt (fill dir drawn contents name replace) with
  | .ok _ => exec (.syncDir dir)
  | .error error => do
    let _ ← attempt (exec (.removeTemp dir drawn))
    throw error

def write (path : Path) (contents : Bytes) (replace : Bool) : Program Unit :=
  match path.getLast? with
  | none => throw (.refused "state directory missing")
  | some name => writeIn path.dropLast name contents replace

def notDirectory : Failure := .refused "native state volume must be a directory"

def notFresh : Failure := .refused "native state exists without its identity; refusing reinitialization"

/-- The loop of `fresh`. -/
def freshEntries : List (String × Bool) → Program Unit
  | [] => pure ()
  | (name,isDir) :: rest => do
    settle (ensure (name = "lost+found" ∧ isDir = true) notFresh)
    let below : List (String × Bool) ← exec (.readDir [name])
    settle (ensure (below = []) notFresh)
    freshEntries rest

def fresh : Program Unit := do
  let metadata ← exec (.symlinkMetadata [])
  settle (ensure (metadata.isDir = true) notDirectory)
  let entries ← exec (.readDir [])
  freshEntries entries

/-- The part of `bind_marker` where the marker is there. -/
def boundMarker (marker : String) (record : String) (metadata : Metadata) : Program Bool := do
  settle (ensure (metadata.isFile = true) (.refused "identity marker must be a regular file"))
  let bytes ← readBounded [marker] 128
  settle (ensure (bytes = utf8 record) (.refused "identity mismatch; refusing to replace existing state"))
  pure true

def bindMarker (marker : String) (record : String) : Program Bool := do
  let metadata ← exec (.symlinkMetadata [])
  settle (ensure (metadata.isDir = true) notDirectory)
  match ← attempt (exec (.symlinkMetadata [marker])) with
  | .ok metadata => boundMarker marker record metadata
  | .error .notFound => do
    fresh
    write [marker] (utf8 record) false
    pure false
  | .error _ => throw (.refused "inspect identity marker")

/-- A native file that must be there and hold something. -/
def database (path : Path) (missing incomplete : String) : Program Unit := do
  let metadata ← context missing (.symlinkMetadata path)
  settle (ensure (metadata.isFile = true ∧ 0 < metadata.len) (.refused incomplete))

/-! ### Bark server -/

def server : String := ".proofstorm-bark-server"
def serverStarted : String := ".proofstorm-bark-server-started"
def serverData : String := "native"

def regular (path : Path) : Program Bytes := do
  let metadata ← context "required native state is missing; restore owned state" (.symlinkMetadata path)
  settle (ensure (metadata.isFile = true ∧ 0 < metadata.len) (.refused "native state must be a nonempty regular file"))
  readBounded path 65536

def serverFields : List String := ["POSTGRES__HOST","POSTGRES__PORT","POSTGRES__NAME","POSTGRES__USER","BITCOIND__URL"]

/-- The values that `server_context` hashes. -/
def serverValues (around : Surroundings) : Except Failure (List String) :=
  serverFields.mapM fun field =>
    require (around.var ("BARK_SERVER__" ++ field)) (.refused ("missing Bark " ++ field))

section
variable [Hash]

def serverContext (around : Surroundings) : Except Failure String := do
  let values ← serverValues around
  pure (Hash.sha256 (utf8 (Json.array (values.map .str)).text))

section
variable [Bip39]

def serverIdentity (context : String) : Program String := do
  let metadata ← exec (.symlinkMetadata [serverData])
  settle (ensure (metadata.isDir = true) (.refused "Bark native directory was redirected"))
  let _ ← regular [serverData,"mnemonic"]
  let seed ← mnemonic [serverData,"mnemonic"]
  pure (Hash.sha256 (utf8 (context ++ "\n" ++ seed)))

def verifyServer (context : String) : Program Unit := do
  let metadata ← exec (.symlinkMetadata [])
  settle (ensure (metadata.isDir = true) (.refused "Bark native volume must be a directory"))
  let started ← regular [serverStarted]
  settle (ensure (started = utf8 context)
    (.refused "Bark database/chain binding changed; restore its original dependencies"))
  let bound ← regular [server]
  let identity ← serverIdentity context
  settle (ensure (bound = utf8 identity) (.refused "Bark native identity changed or initialization is incomplete"))

/-- What `prepare_server` has `prepare_server_with` do to initialize. -/
def initializeServer : Program Unit := do
  let success : Bool ← context "initialize native Bark server" .create
  settle (ensure (success = true) (.refused "native Bark initialization failed; explicit recovery required"))

/-- The part of `prepare_server_with` for a volume that was not started. -/
def createServer (context : String) : Program Unit := do
  fresh
  write [serverStarted] (utf8 context) false
  exec (.createDir [serverData])
  initializeServer
  let identity ← serverIdentity context
  write [server] (utf8 identity) false
  exec .writeCreated

def prepareServerWith (context : String) : Program Unit := do
  let started : Bool ← exec (.tryExists [serverStarted])
  if started = true then verifyServer context else createServer context

def prepareServer (around : Surroundings) : Program Unit := do
  let context ← settle (serverContext around)
  prepareServerWith context

def execServer (around : Surroundings) : Program Unit := do
  let values ← settle (serverContext around)
  verifyServer values
  context "execute native Bark server" (.exec .captaind)
end

/-! ### CLN and hold -/

def cln : String := ".proofstorm-cln-hold"
def clnStarted : String := ".proofstorm-cln-hold-started"
def tlsFiles : List String := ["ca.pem","ca-key.pem","server.pem","server-key.pem","client.pem","client-key.pem"]

/-- The projected TLS files, by `role/name`. -/
abbrev Material := List (String × Bytes)

def tlsMaterial (around : Surroundings) : Except Failure Material :=
  ([("cln","/cln-tls"),("hold","/hold-tls")].flatMap fun (role,dir) => tlsFiles.map fun name => (role,dir,name)).mapM
    fun (role,dir,name) => do
      let bytes ← readProjected around (dir ++ "/" ++ name) 65536
      ensure (bytes ≠ []) (.refused "CLN/hold projected TLS identity is incomplete")
      pure (role ++ "/" ++ name,bytes)

def tlsJson (material : Material) : Json :=
  .array (material.map fun entry => .array [.str entry.1,.array (entry.2.map fun byte => .nat byte.toNat)])

def tlsFingerprint (material : Material) : String := Hash.sha256 (utf8 (tlsJson material).text)

def nativeTlsPath (name : String) : Path :=
  let role := String.ofList (name.toList.takeWhile (· ≠ '/'))
  let file := String.ofList ((name.toList.dropWhile (· ≠ '/')).drop 1)
  if role = "cln" then ["regtest",file] else ["regtest","hold",file]

section
variable [Bip39]

def validateClnHsm (hsm : Bytes) : Except Failure Unit := do
  if hsm.length = 32 then pure ()
  else do
    let rest ← require (if List.replicate 32 0 <+: hsm then some (hsm.drop 32) else none)
      (.refused "unsupported CLN native HSM identity format")
    let mnemonic ← require (Utf8.fromUtf8 rest).toOption (.refused "unsupported CLN native HSM identity format")
    ensure (Bip39.parseInNormalized mnemonic = true) (.refused "CLN native HSM mnemonic is invalid")

def clnIdentity : Program String := do
  let hsm ← regular ["regtest","hsm_secret"]
  settle (validateClnHsm hsm)
  [["regtest","lightningd.sqlite3"],["regtest","hold","hold.sqlite3"]].forM fun file =>
    database file "CLN/hold database is missing; refusing reinitialization"
      "CLN/hold database must be nonempty native state"
  pure (Hash.sha256 hsm)

/-- The part of `prepare_cln` for a volume that was started. -/
def verifyCln (material : Material) : Program Unit := do
  [[],["regtest"],["regtest","hold"]].forM fun dir => do
    let metadata ← exec (.symlinkMetadata dir)
    settle (ensure (metadata.isDir = true) (.refused "CLN/hold state directory was redirected"))
  let started ← regular [clnStarted]
  settle (ensure (started = utf8 (tlsFingerprint material))
    (.refused "CLN/hold TLS identity changed; refusing replacement"))
  let bound ← regular [cln]
  let identity ← clnIdentity
  settle (ensure (bound = utf8 identity) (.refused "CLN/hold initialization incomplete or HSM identity changed"))
  material.forM fun entry => do
    let bytes ← regular (nativeTlsPath entry.1)
    settle (ensure (bytes = entry.2) (.refused "CLN/hold native TLS identity missing or changed"))

/-- `fs::create_dir_all`, for the last of the directories from the root down, in reverse. -/
def createDirAll : List Path → Program Unit
  | [] => throw (.refused "failed to create whole tree")
  | path :: parents => do
    match ← attempt (exec (.createDir path)) with
    | .ok _ => pure ()
    | .error .notFound => do
      createDirAll parents
      lastDir path
    | .error error => existing path error
where
  /-- A directory that is there already is no error. -/
  existing (path : Path) (error : Failure) : Program Unit := do
    let there : Bool ← exec (.isDir path)
    settle (ensure (there = true) error)
  lastDir (path : Path) : Program Unit := do
    match ← attempt (exec (.createDir path)) with
    | .ok _ => pure ()
    | .error error => existing path error

/-- The part of `prepare_cln` for a volume that was not started. -/
def seedCln (material : Material) : Program Unit := do
  fresh
  write [clnStarted] (utf8 (tlsFingerprint material)) false
  createDirAll [["regtest","hold"],["regtest"],[]]
  material.forM fun entry => write (nativeTlsPath entry.1) entry.2 false

def prepareCln (material : Material) : Program Unit := do
  let started : Bool ← exec (.tryExists [clnStarted])
  if started = true then verifyCln material else seedCln material

def execClnHold (around : Surroundings) : Program Unit := do
  let material ← settle (tlsMaterial around)
  prepareCln material
  context "execute native CLN/hold" (.exec .lightningd)

def sealCln : Program Unit := do
  let identity ← clnIdentity
  let there : Bool ← exec (.tryExists [cln])
  if there = true then do
    let bytes ← regular [cln]
    settle (ensure (bytes = utf8 identity) (.refused "CLN HSM identity changed"))
  else write [cln] (utf8 identity) false

def clnHoldReady : Program Unit := do
  exec (.rpc "getinfo")
  exec (.rpc "listholdinvoices")
  exec (.connect 9988)
  exec (.connect 9292)
  sealCln
end

/-! ### Bark wallet processor -/

def identityMarker : String := ".proofstorm-bark-identity"
def databases : List String := ["db.sqlite","onchain_state.redb"]

/-- `identity_record`. -/
def identityRecord (kind seed : String) : String :=
  "proofstorm-" ++ kind ++ "/v1\n" ++ Hash.sha256 (utf8 seed) ++ "\n"

def requireDatabase (path : Path) : Program Unit :=
  database path "Bark wallet state is incomplete; refusing reinitialization"
    "Bark wallet state is incomplete; refusing reinitialization"

def bindIdentity (mnemonic : String) : Program Unit := do
  let bound ← bindMarker identityMarker (identityRecord "bark-wallet" mnemonic)
  if bound = true then databases.forM fun name => requireDatabase [name]
  else pure ()

/-- `parse_methods`. -/
def parseMethods (profile : ProcessorProfile) (value : String) : Option (List PaymentMethod) := do
  let names := (value.toList.splitOn ',').map String.ofList
  let methods ← names.mapM PaymentMethod.parse
  if (methodSet methods).length = names.length && profile.acceptsMethods (methodSet methods) then
    some (methodSet methods)
  else none

/-- `method_list`. -/
def methodList (methods : List PaymentMethod) : String := ",".intercalate (methods.map PaymentMethod.asStr)

def paymentMethods (value : Option String) : Except Failure String :=
  require ((value.bind (parseMethods .bark)).map methodList)
    (.refused "BARK_PAYMENT_METHODS must list the rendered payment methods")

def credentials : List String :=
  ["/chain-rpc/rpc.cookie","/processor-server/tls/ca.pem","/processor-server/tls/server.pem",
    "/processor-server/tls/server.key"]

section
variable [Bip39]

/-- The projected seed of the processor. -/
def processorSeed (around : Surroundings) : Except Failure String := do
  let bytes ← readProjected around "/processor-identity/mnemonic" 512
  parseMnemonic bytes

def execProcessor (around : Surroundings) : Program Unit := do
  let methods ← settle (paymentMethods (around.var "BARK_PAYMENT_METHODS"))
  let seed ← settle (processorSeed around)
  settle (credentials.forM fun path => do
    let bytes ← readProjected around path 65536
    ensure (bytes ≠ []) (.refused "required Bark credential file is empty"))
  bindIdentity seed
  context "execute native Bark payment processor" (.exec (.processor seed methods))

/-! ### Commands -/

inductive Request
  | prepareServer (around : Surroundings)
  | execServer (around : Surroundings)
  | execClnHold (around : Surroundings)
  | clnHoldReady
  | execProcessor (around : Surroundings)

def program : Request → Program Unit
  | .prepareServer around => prepareServer around
  | .execServer around => execServer around
  | .execClnHold around => execClnHold around
  | .clnHoldReady => clnHoldReady
  | .execProcessor around => execProcessor around

def code (request : Request) : Call Machine Operation Failure Operation.Answer (Except Failure Unit) :=
  (program request).run
end

end

end Proofstorm.Startup
