import Proofstorm.Startup.Retained
import Mathlib.Algebra.BigOperators.Group.List.Basic

/-!
Runs of starts on one volume, each cut off anywhere, while the native program
changes its files. Native state is initialized at most once, on an empty volume,
and all that was ever bound or found as bound is one identity
(`native_state_bound_once`).
-/
namespace Proofstorm.Startup
open Proofstorm.Upload (Bytes Hash)
open Proofstorm.Interleaving
open Proofstorm.Sequenced
open Proofstorm.Core (Json)

/-! ### What is hashed -/

theorem utf8_inj {a b : String} (same : utf8 a = utf8 b) : a = b := String.toList_injective (Utf8.encode_inj same)

theorem tlsJson_proper (material : Material) : (tlsJson material).Proper := by
  refine Json.array_proper fun item member => ?_
  obtain ⟨entry,_,rfl⟩ := List.mem_map.mp member
  refine Json.array_proper fun part there => ?_
  rcases List.mem_pair.mp there with rfl | rfl
  · exact Json.str_proper _
  · refine Json.array_proper fun number here => ?_
    obtain ⟨byte,_,rfl⟩ := List.mem_map.mp here
    exact Json.nat_proper _

def readByte (value : Json) : Option UInt8 := value.asU64.map UInt8.ofNat

/-- What `tlsJson` wrote of one file. -/
def readEntry (value : Json) : Option (String × Bytes) := do
  let parts ← value.list some
  let name ← parts[0]?
  let bytes ← parts[1]?
  return (← name.asStr,← bytes.list readByte)

theorem readEntry_tlsJson (material : Material) : (tlsJson material).list readEntry = some material := by
  rw [tlsJson,Json.list_array]
  refine Json.mapM_some fun entry _ => ?_
  have bytes : (Json.array (entry.2.map fun byte => .nat byte.toNat)).list readByte = some entry.2 := by
    rw [Json.list_array]
    refine Json.mapM_some fun byte _ => ?_
    have small : byte.toNat < 2 ^ 64 := lt_trans byte.toNat_lt (by decide)
    simp [readByte,Json.asU64_nat small]
  simp [readEntry,Json.list_array,bytes]

section
variable [Hash] (injective : Function.Injective Hash.sha256)
include injective

theorem serverValues_of_context {a b : Surroundings} {context : String} (left : serverContext a = .ok context)
    (right : serverContext b = .ok context) : serverValues a = serverValues b := by
  obtain ⟨ours,given,same⟩ := bind_ok.mp left
  obtain ⟨theirs,found,other⟩ := bind_ok.mp right
  have hashes := (pure_ok.mp same).trans (pure_ok.mp other).symm
  have texts := utf8_inj (injective hashes)
  have read := congrArg Json.ofText texts
  rw [Json.ofText_text (Json.texts_proper ours),Json.ofText_text (Json.texts_proper theirs)] at read
  have lists := congrArg (fun value => value.list Json.asStr) (Option.some.inj read)
  simp only [Json.list_texts,Option.some.injEq] at lists
  rw [given,found,lists]

theorem tlsFingerprint_inj {a b : Material} (same : tlsFingerprint a = tlsFingerprint b) : a = b := by
  have texts := utf8_inj (injective same)
  have read := congrArg Json.ofText texts
  rw [Json.ofText_text (tlsJson_proper a),Json.ofText_text (tlsJson_proper b)] at read
  have lists := congrArg (fun value => value.list readEntry) (Option.some.inj read)
  simp only [readEntry_tlsJson,Option.some.injEq] at lists
  exact lists

theorem seed_of_identity {context a b : String} (same : utf8 (Hash.sha256 (utf8 (context ++ "\n" ++ a))) =
    utf8 (Hash.sha256 (utf8 (context ++ "\n" ++ b)))) : a = b := by
  have texts := congrArg String.toList (utf8_inj (injective (utf8_inj same)))
  simp only [String.toList_append] at texts
  exact String.toList_injective (List.append_cancel_left texts)

theorem seed_of_record {a b : String} (same : identityRecord "bark-wallet" a = identityRecord "bark-wallet" b) : a = b := by
  have texts := congrArg String.toList same
  simp only [identityRecord,String.toList_append] at texts
  have hashes := String.toList_injective (List.append_cancel_left (List.append_cancel_right texts))
  exact utf8_inj (injective hashes)
end

/-! ### Lists -/

theorem countP_le_one {α : Type} {p : α → Bool} {list : List α}
    (alone : ∀ newer a older, list = newer ++ a :: older → p a = true → ∀ b ∈ older, p b = false) : list.countP p ≤ 1 := by
  induction list with
  | nil => exact Nat.zero_le _
  | cons a rest ih =>
    have later := ih fun newer b older same => alone (a :: newer) b older (by rw [same,List.cons_append])
    cases here : p a with
    | false => rw [List.countP_cons_of_neg (by simp [here])]; exact later
    | true =>
      have none_ : rest.countP p = 0 := List.countP_eq_zero.mpr fun b member => by simp [alone [] a rest rfl here b member]
      rw [List.countP_cons_of_pos here,none_]

theorem sum_le_one {α : Type} {f : α → Nat} {list : List α} (each : ∀ a ∈ list, f a ≤ 1)
    (apart : list.Pairwise fun later earlier => 0 < f earlier → f later = 0) : (list.map f).sum ≤ 1 := by
  induction apart with
  | nil => exact Nat.zero_le _
  | @cons a rest others _ ih =>
    have rest_ := ih fun b member => each b (List.mem_cons_of_mem _ member)
    rw [List.map_cons,List.sum_cons]
    rcases Nat.eq_zero_or_pos (rest.map f).sum with none_ | some_
    · have first := each a List.mem_cons_self
      omega
    · obtain ⟨b,member,positive⟩ : ∃ b ∈ rest, 0 < f b := by
        by_contra never
        push Not at never
        have zero : (rest.map f).sum = 0 := List.sum_eq_zero fun n member => by
          obtain ⟨b,there,rfl⟩ := List.mem_map.mp member
          exact Nat.le_zero.mp (never b there)
        omega
      have here := others b member positive
      omega

/-- Where all that satisfy a condition have something, and no two have different
    things, all have the same. -/
theorem exists_common {α β : Type} [Nonempty β] {list : List α} {c : α → Prop} {has : α → β → Prop}
    (some_ : ∀ a ∈ list, c a → ∃ b, has a b) (same : ∀ a ∈ list, ∀ a' ∈ list, ∀ b b', has a b → has a' b' → b = b') :
    ∃ b, ∀ a ∈ list, c a → has a b := by
  by_cases any : ∃ a ∈ list, c a
  · obtain ⟨a,member,holds⟩ := any
    obtain ⟨b,here⟩ := some_ a member holds
    refine ⟨b,fun a' member' holds' => ?_⟩
    obtain ⟨b',there⟩ := some_ a' member' holds'
    exact same a member a' member' b b' here there ▸ there
  · exact ⟨Classical.arbitrary β,fun a member holds => absurd ⟨a,member,holds⟩ any⟩

/-! ### What a start has done -/

/-- The start entered a native program. -/
def Entered (process : Start) : Prop := ∃ deed ∈ process.deeds, entersDeed deed = true

/-- The first marker was written. -/
def wroteFirst (request : Request) : Deed Machine Operation Operation.Answer → Bool
  | .did (.persistNoclobber [] _ _ name) _ => name == request.first
  | _ => false

/-- How often the start entered the initialization of native state: a native
    program on a volume that it had marked itself. -/
def initializations (process : Start) : Nat :=
  if process.deeds.any (wroteFirst process.request) = true then process.deeds.countP entersDeed else 0

theorem wroteFirst_iff {request : Request} {deed : Deed Machine Operation Operation.Answer} :
    wroteFirst request deed = true ↔ ∃ drawn contents, deed = .did (.persistNoclobber [] drawn contents request.first) () := by
  constructor
  · intro wrote
    cases deed with
    | read state => cases wrote
    | failed operation => cases wrote
    | did operation answer =>
      cases operation with
      | persistNoclobber dir drawn contents name =>
        cases dir with
        | nil =>
          obtain rfl : name = request.first := by simpa [wroteFirst] using wrote
          exact ⟨drawn,contents,rfl⟩
        | cons _ _ => cases wrote
      | _ => cases wrote
  · rintro ⟨drawn,contents,rfl⟩
    simp [wroteFirst]

/-- A start that initializes has marked the volume. -/
theorem wrote_of_initializations {process : Start} (some_ : 0 < initializations process) :
    (∃ contents, Wrote process.deeds process.request.first contents) ∧ Entered process := by
  unfold initializations at some_
  split_ifs at some_ with marked
  · obtain ⟨deed,there,wrote⟩ := List.any_eq_true.mp marked
    obtain ⟨drawn,contents,rfl⟩ := wroteFirst_iff.mp wrote
    exact ⟨⟨contents,drawn,there⟩,List.countP_pos_iff.mp some_⟩
  · exact absurd some_ (lt_irrefl 0)

theorem initializations_of_wrote {process : Start} {contents : Bytes} (wrote : Wrote process.deeds process.request.first contents)
    (entered : Entered process) : 0 < initializations process := by
  obtain ⟨drawn,did⟩ := wrote
  have marked : process.deeds.any (wroteFirst process.request) = true :=
    List.any_eq_true.mpr ⟨_,did,wroteFirst_iff.mpr ⟨drawn,contents,rfl⟩⟩
  rw [initializations,if_pos marked]
  exact List.countP_pos_iff.mpr entered

section
variable [Hash] [Bip39]

/-- When the start was over the marker held what the start binds it to, of what it
    was given and what it has read. -/
def Confirms (process : Start) (marker : String) : Prop :=
  ∃ contents, process.after.at_ [marker] = some (.file contents) ∧ Bound process.request process.deeds marker contents

/-- The start found the volume as it was bound: every marker, and the native files. -/
def Verified (process : Start) : Prop :=
  (∀ marker ∈ process.request.markers, ∃ contents, process.before.at_ [marker] = some (.file contents) ∧
    Bound process.request process.deeds marker contents) ∧ NativeFiles process.request process.deeds

/-- What native state is bound to: the dependencies and the seed of the Bark server,
    the TLS material and the HSM secret of CLN and hold, the seed of the wallet. -/
structure Identity where
  values : List String
  seed : String
  material : Material
  hsm : Bytes
  wallet : String

/-- The environment of a start of the Bark server. -/
def Request.server? : Request → Option Surroundings
  | .prepareServer around | .execServer around => some around
  | _ => none

/-- The start was given, and has read, this identity. -/
structure Identity.Agrees (identity : Identity) (process : Start) (marker : String) : Prop where
  values : ∀ around, process.request.server? = some around → serverValues around = .ok identity.values
  seed : marker = server → ReadsSeed process.deeds identity.seed
  material : ∀ around, process.request = .execClnHold around → marker = clnStarted → tlsMaterial around = .ok identity.material
  hsm : marker = cln → ReadsHsm process.deeds identity.hsm
  wallet : ∀ around, process.request = .execProcessor around → processorSeed around = .ok identity.wallet

/-- What holds of a run of starts and readiness checks. -/
structure Preserved (log : List Start) (initial state : Machine) : Prop where
  /-- Native initialization is entered at most once, and only if the volume held
      nothing but an empty `lost+found`. -/
  once : (log.map initializations).sum ≤ 1
  empty : ∀ process ∈ log, 0 < initializations process → ∃ moment ∈ process.moments, Empty moment.before
  /-- A start that enters a native program initializes it, or confirms all that was bound. -/
  entered : ∀ process ∈ log, Entered process → Confirms process process.request.first ∧
    (0 < initializations process ∨
      (∀ marker ∈ process.request.markers, Confirms process marker) ∧ NativeFiles process.request process.deeds)
  /-- All that was ever bound, or confirmed, is one identity. -/
  identity : ∃ identity : Identity, ∀ process ∈ log, ∀ marker, Confirms process marker → identity.Agrees process marker
  /-- A start that finds the volume neither empty nor as it was bound changes no file
      and fails; `exec_server` does so on an empty volume too. -/
  refused : ∀ process ∈ log, process.request.checks = false →
    (process.request.initializes = true → ∀ moment ∈ process.moments, ¬ Empty moment.before) → Unchanged process.moments ∧
      (¬ Verified process → ¬ Entered process ∧ ∀ u, process.reply ≠ some (.ok u))
  /-- A readiness check that succeeds confirms the seal. -/
  ready : ∀ process ∈ log, process.request.checks = true → ∀ u, process.reply = some (.ok u) → Confirms process cln
  /-- A marker or a seal never changes. -/
  sealed : ∀ marker ∈ markers, ∀ node, (initial.at_ [marker] = some node ∨ ∃ process ∈ log, ∃ moment ∈ process.moments,
    moment.before.at_ [marker] = some node ∨ moment.after.at_ [marker] = some node) → state.at_ [marker] = some node

/-! ### One start -/

theorem bound_mem {request : Request} {deeds : Deeds} {marker : String} {contents : Bytes}
    (bound : Bound request deeds marker contents) : marker ∈ markers := by
  have server_ : ∀ around, ServerBound around deeds marker contents → marker ∈ markers := by
    rintro around ⟨_,_,⟨rfl,_⟩ | ⟨rfl,_⟩⟩ <;> decide
  cases request with
  | prepareServer around => exact server_ around bound
  | execServer around => exact server_ around bound
  | execClnHold around => obtain ⟨_,_,rfl,_⟩ | ⟨rfl,_⟩ := bound <;> decide
  | clnHoldReady => obtain ⟨rfl,_⟩ := bound; decide
  | execProcessor around => obtain ⟨_,_,rfl,_⟩ := bound; decide

section
variable {initial state : Machine} {log : List Start} {process : Start}

/-- What is known of every start of a run. -/
structure Known (process : Start) : Prop where
  trace : ∃ rest, Trace execute .io Surrounds (code process.request) process.before process.moments rest process.after ∧
    process.reply = rest.result?

theorem known_of_mem (run : Processes execute .io Surrounds code initial log state) (member : process ∈ log) : Known process :=
  ⟨run.trace member⟩

theorem Known.wrote_bound (known : Known process) {marker : String} {contents : Bytes}
    (wrote : Wrote process.deeds marker contents) : Bound process.request process.deeds marker contents := by
  obtain ⟨rest,trace,_⟩ := known.trace
  obtain ⟨drawn,did⟩ := wrote
  obtain ⟨moment,member,same⟩ := List.mem_map.mp did
  obtain ⟨deeds,subset,allows⟩ := allowed_of_mem trace member same
  exact (allows.bound drawn contents marker rfl).later subset

theorem Known.confirms (known : Known process) {marker : String} {contents : Bytes}
    (holds : Holds process.deeds marker contents) (bound : Bound process.request process.deeds marker contents) :
    Confirms process marker := by
  obtain ⟨rest,trace,_⟩ := known.trace
  exact ⟨contents,holds_marker trace (bound_mem bound) holds,bound⟩

theorem Known.entered (known : Known process) (entered : Entered process) :
    process.request.checks = false ∧ (Begun process.request process.deeds ∨ Intact process.request process.deeds) := by
  obtain ⟨rest,trace,_⟩ := known.trace
  obtain ⟨deed,there,enters⟩ := entered
  obtain ⟨moment,member,rfl⟩ := List.mem_map.mp there
  cases same : moment.deed with
  | read state => rw [same] at enters; cases enters
  | failed operation => rw [same] at enters; cases enters
  | did operation answer =>
    rw [same] at enters
    obtain ⟨deeds,subset,allows⟩ := allowed_of_mem trace member same
    obtain ⟨start,_,ready⟩ := allows.enters enters
    exact ⟨start,ready.imp (·.later subset) (·.later subset)⟩

theorem Known.enters_le (known : Known process) : process.deeds.countP entersDeed ≤ 1 := by
  obtain ⟨rest,trace,_⟩ := known.trace
  rw [Process.deeds,List.countP_map]
  refine countP_le_one fun newer moment older place enters other member => ?_
  cases same : moment.deed with
  | read state => simp [same,entersDeed] at enters
  | failed operation => simp [same,entersDeed] at enters
  | did operation answer =>
    have allows := trace.allowed (code_grounded process.request) place same
    exact (allows.enters (by simpa [same,entersDeed] using enters)).2.1 _ (List.mem_map_of_mem member)

theorem Known.initializations_le (known : Known process) : initializations process ≤ 1 := by
  unfold initializations
  split_ifs
  · exact known.enters_le
  · exact Nat.zero_le _

variable {request : Request} {deeds : Deeds} {contents : Bytes}

/-- A readiness check does not write the marker of a start. -/
theorem checks_of_bound (bound : Bound request deeds request.first contents) : request.checks = false := by
  cases request with
  | clnHoldReady => exact absurd bound.1 (by decide)
  | _ => rfl

/-- The first marker is written only on an empty volume. -/
theorem Known.empty (known : Known process) {contents : Bytes} (wrote : Wrote process.deeds process.request.first contents) :
    ∃ moment ∈ process.moments, Empty moment.before := by
  obtain ⟨rest,trace,_⟩ := known.trace
  obtain ⟨drawn,did⟩ := wrote
  obtain ⟨moment,member,same⟩ := List.mem_map.mp did
  obtain ⟨deeds,subset,allows⟩ := allowed_of_mem trace member same
  obtain ⟨_,⟨bare,_⟩ | checks⟩ := allows.spares rfl
  · exact bare_empty trace (bare.later subset)
  · have start := checks_of_bound (allows.bound drawn contents process.request.first rfl)
    rw [start] at checks
    cases checks

/-! ### One identity -/

theorem same_contents (run : Processes execute .io Surrounds code initial log state) {p q : Start} (left : p ∈ log) (right : q ∈ log)
    {marker : String} (marks : marker ∈ markers) {a b : Bytes} (one : p.after.at_ [marker] = some (.file a))
    (two : q.after.at_ [marker] = some (.file b)) : a = b := by
  have along : ∀ process ∈ log, Along execute Surrounds process.moments Steady := fun process member => by
    obtain ⟨_,trace,_⟩ := run.trace member
    exact steady_along trace
  have since := (run.since along .refl .trans fun _ _ changed => changed.steady).2
  have first := (since p left).2.markers marker marks _ one
  have second := (since q right).2.markers marker marks _ two
  exact Node.file.inj (Option.some.inj (first.symm.trans second))

theorem bound_server (bound : Bound request deeds server contents) :
    ∃ around, request.server? = some around ∧ ServerBound around deeds server contents := by
  cases request with
  | prepareServer around => exact ⟨around,rfl,bound⟩
  | execServer around => exact ⟨around,rfl,bound⟩
  | execClnHold around => obtain ⟨_,_,named,_⟩ | ⟨named,_⟩ := bound <;> exact absurd named (by decide)
  | clnHoldReady => exact absurd bound.1 (by decide)
  | execProcessor around => obtain ⟨_,_,named,_⟩ := bound; exact absurd named (by decide)

theorem bound_seal (bound : Bound request deeds cln contents) :
    ClnSealed deeds cln contents := by
  have never : ∀ around, ¬ ServerBound around deeds cln contents := by
    rintro around ⟨_,_,⟨named,_⟩ | ⟨named,_⟩⟩ <;> exact absurd named (by decide)
  cases request with
  | prepareServer around => exact absurd bound (never around)
  | execServer around => exact absurd bound (never around)
  | execClnHold around =>
    obtain ⟨_,_,named,_⟩ | sealed := bound
    · exact absurd named (by decide)
    · exact sealed
  | clnHoldReady => exact bound
  | execProcessor around => obtain ⟨_,_,named,_⟩ := bound; exact absurd named (by decide)

/-- A start of the Bark server that confirms a marker has the context that was bound. -/
theorem Known.server_context (known : Known process) {marker : String} (confirms : Confirms process marker) {around : Surroundings}
    (is_ : process.request.server? = some around) : ∃ context, serverContext around = .ok context ∧
      process.after.at_ [serverStarted] = some (.file (utf8 context)) := by
  obtain ⟨contents,held,bound⟩ := confirms
  have bound : ServerBound around process.deeds marker contents := by
    cases named : process.request with
    | prepareServer other => rw [named] at is_ bound; cases is_; exact bound
    | execServer other => rw [named] at is_ bound; cases is_; exact bound
    | execClnHold other => rw [named] at is_; cases is_
    | clnHoldReady => rw [named] at is_; cases is_
    | execProcessor other => rw [named] at is_; cases is_
  obtain ⟨context,given,⟨rfl,rfl⟩ | ⟨rfl,started,_⟩⟩ := bound
  · exact ⟨context,given,held⟩
  · obtain ⟨rest,trace,_⟩ := known.trace
    exact ⟨context,given,holds_marker trace (by decide) started⟩

/-! ### Runs -/

theorem Known.confirms_entered (known : Known process) (entered : Entered process) : Confirms process process.request.first ∧
    (0 < initializations process ∨
      (∀ marker ∈ process.request.markers, Confirms process marker) ∧ NativeFiles process.request process.deeds) := by
  obtain ⟨start,⟨_,contents,wrote⟩ | ⟨each,files⟩⟩ := known.entered entered
  · exact ⟨known.confirms (.inr wrote) (known.wrote_bound wrote),.inl (initializations_of_wrote wrote entered)⟩
  · have all : ∀ marker ∈ process.request.markers, Confirms process marker := fun marker member => by
      obtain ⟨contents,found,bound⟩ := each marker member
      exact known.confirms (.inl found) bound
    refine ⟨all _ ?_,.inr ⟨all,files⟩⟩
    revert start
    cases process.request with
    | clnHoldReady => exact nofun
    | _ => exact fun _ => List.mem_cons_self

/-- A start that finds the volume neither empty nor as it was bound fails. -/
theorem Known.refused (known : Known process) (start : process.request.checks = false)
    (never : process.request.initializes = true → ∀ moment ∈ process.moments, ¬ Empty moment.before) :
    Unchanged process.moments ∧ (¬ Verified process → ¬ Entered process ∧ ∀ u, process.reply ≠ some (.ok u)) := by
  obtain ⟨rest,trace,replied⟩ := known.trace
  have unchanged := unchanged_of_not_empty trace start never
  have verified : Begun process.request process.deeds ∨ Intact process.request process.deeds → Verified process := by
    rintro (begun | intact)
    · obtain ⟨_,_,drawn,did⟩ := begun
      obtain ⟨moment,member,wrote⟩ := List.mem_map.mp did
      have changed := unchanged moment member
      rw [wrote] at changed
      cases changed
    · refine ⟨fun marker member => ?_,intact.2⟩
      obtain ⟨contents,found,bound⟩ := intact.1 marker member
      have marks := bound_mem bound
      exact ⟨contents,(unchanged_markers trace unchanged marker marks).symm.trans (holds_marker trace marks (.inl found)),bound⟩
  refine ⟨unchanged,fun not => ⟨fun entered => not (verified (known.entered entered).2),fun u succeeded => not (verified ?_)⟩⟩
  have settled := trace.reply (code_grounded process.request) (replied.symm.trans succeeded) u rfl
  cases named : process.request with
  | clnHoldReady => rw [named] at start; cases start
  | _ => rw [named] at settled; exact settled

/-! What a start is known to be bound to, by the markers as it left them. -/

def HasValues (process : Start) (values : List String) : Prop :=
  ∃ around context, process.request.server? = some around ∧ serverValues around = .ok values ∧
    serverContext around = .ok context ∧ process.after.at_ [serverStarted] = some (.file (utf8 context))

def HasSeed (process : Start) (seed : String) : Prop :=
  ReadsSeed process.deeds seed ∧ ∃ context, process.after.at_ [serverStarted] = some (.file (utf8 context)) ∧
    process.after.at_ [server] = some (.file (utf8 (Hash.sha256 (utf8 (context ++ "\n" ++ seed)))))

def HasMaterial (process : Start) (material : Material) : Prop :=
  ∃ around, process.request = .execClnHold around ∧ tlsMaterial around = .ok material ∧
    process.after.at_ [clnStarted] = some (.file (utf8 (tlsFingerprint material)))

def HasHsm (process : Start) (hsm : Bytes) : Prop :=
  ReadsHsm process.deeds hsm ∧ process.after.at_ [cln] = some (.file (utf8 (Hash.sha256 hsm)))

def HasWallet (process : Start) (seed : String) : Prop :=
  ∃ around, process.request = .execProcessor around ∧ processorSeed around = .ok seed ∧
    process.after.at_ [identityMarker] = some (.file (utf8 (identityRecord "bark-wallet" seed)))

theorem Known.has_values (known : Known process) {marker : String} (confirms : Confirms process marker) {around : Surroundings}
    (is_ : process.request.server? = some around) : ∃ values, HasValues process values := by
  obtain ⟨context,given,held⟩ := known.server_context confirms is_
  obtain ⟨values,found,_⟩ := bind_ok.mp given
  exact ⟨values,around,context,is_,found,given,held⟩

theorem Known.has_seed (known : Known process) (confirms : Confirms process server) : ∃ seed, HasSeed process seed := by
  obtain ⟨contents,held,bound⟩ := confirms
  obtain ⟨around,_,context,_,⟨named,_⟩ | ⟨_,started,seed,reads,rfl⟩⟩ := bound_server bound
  · exact absurd named (by decide)
  · obtain ⟨rest,trace,_⟩ := known.trace
    exact ⟨seed,reads,context,holds_marker trace (by decide) started,held⟩

theorem has_material (confirms : Confirms process clnStarted) {around : Surroundings}
    (is_ : process.request = .execClnHold around) : ∃ material, HasMaterial process material := by
  obtain ⟨contents,held,bound⟩ := confirms
  rw [is_] at bound
  obtain ⟨material,given,_,rfl⟩ | ⟨named,_⟩ := bound
  · exact ⟨material,around,is_,given,held⟩
  · exact absurd named (by decide)

theorem has_hsm (confirms : Confirms process cln) : ∃ hsm, HasHsm process hsm := by
  obtain ⟨contents,held,bound⟩ := confirms
  obtain ⟨_,hsm,reads,rfl⟩ := bound_seal bound
  exact ⟨hsm,reads,held⟩

theorem has_wallet {marker : String} (confirms : Confirms process marker) {around : Surroundings}
    (is_ : process.request = .execProcessor around) : ∃ seed, HasWallet process seed := by
  obtain ⟨contents,held,bound⟩ := confirms
  rw [is_] at bound
  obtain ⟨seed,given,rfl,rfl⟩ := bound
  exact ⟨seed,around,is_,given,held⟩

theorem Known.ready (known : Known process) (checks : process.request.checks = true) (u : Unit)
    (succeeded : process.reply = some (.ok u)) : Confirms process cln := by
  obtain ⟨rest,trace,replied⟩ := known.trace
  have settled := trace.reply (code_grounded process.request) (replied.symm.trans succeeded) u rfl
  have named : process.request = .clnHoldReady := by
    cases named : process.request with
    | clnHoldReady => rfl
    | _ => rw [named] at checks; cases checks
  rw [named] at settled
  obtain ⟨contents,holds,bound⟩ := settled
  exact known.confirms holds (named ▸ bound)

theorem run_identity (injective : Function.Injective Hash.sha256)
    (run : Processes execute .io Surrounds code initial log state) :
    ∃ identity : Identity, ∀ process ∈ log, ∀ marker, Confirms process marker → identity.Agrees process marker := by
  obtain ⟨values,allValues⟩ : ∃ values, ∀ process ∈ log,
      (∃ marker around, Confirms process marker ∧ process.request.server? = some around) → HasValues process values := by
    refine exists_common (fun process member ⟨_,_,confirms,is_⟩ => (known_of_mem run member).has_values confirms is_) ?_
    rintro p left q right ours theirs ⟨_,context,_,our,given,held⟩ ⟨_,_,_,their,found,there⟩
    obtain rfl := utf8_inj (same_contents run left right (by decide) held there)
    exact Except.ok.inj (our.symm.trans ((serverValues_of_context injective given found).trans their))
  obtain ⟨seed,allSeeds⟩ : ∃ seed, ∀ process ∈ log, Confirms process server → HasSeed process seed := by
    refine exists_common (fun process member => (known_of_mem run member).has_seed) ?_
    rintro p left q right ours theirs ⟨_,context,held,bound⟩ ⟨_,_,there,found⟩
    obtain rfl := utf8_inj (same_contents run left right (by decide) held there)
    exact seed_of_identity injective (same_contents run left right (by decide) bound found)
  obtain ⟨material,allMaterial⟩ : ∃ material, ∀ process ∈ log,
      (∃ around, process.request = .execClnHold around ∧ Confirms process clnStarted) → HasMaterial process material := by
    refine exists_common (fun process _ ⟨_,is_,confirms⟩ => has_material confirms is_) ?_
    rintro p left q right ours theirs ⟨_,_,_,held⟩ ⟨_,_,_,there⟩
    exact tlsFingerprint_inj injective (utf8_inj (same_contents run left right (by decide) held there))
  obtain ⟨hsm,allHsm⟩ : ∃ hsm, ∀ process ∈ log, Confirms process cln → HasHsm process hsm := by
    refine exists_common (fun process _ => has_hsm) ?_
    rintro p left q right ours theirs ⟨_,held⟩ ⟨_,there⟩
    exact injective (utf8_inj (same_contents run left right (by decide) held there))
  obtain ⟨wallet,allWallets⟩ : ∃ wallet, ∀ process ∈ log,
      (∃ marker around, Confirms process marker ∧ process.request = .execProcessor around) → HasWallet process wallet := by
    refine exists_common (fun process _ ⟨_,_,confirms,is_⟩ => has_wallet confirms is_) ?_
    rintro p left q right ours theirs ⟨_,_,_,held⟩ ⟨_,_,_,there⟩
    exact seed_of_record injective (utf8_inj (same_contents run left right (by decide) held there))
  refine ⟨⟨values,seed,material,hsm,wallet⟩,fun process member marker confirms => ⟨?_,?_,?_,?_,?_⟩⟩
  · intro around is_
    obtain ⟨other,_,same,given,_⟩ := allValues process member ⟨marker,around,confirms,is_⟩
    obtain rfl := Option.some.inj (is_.symm.trans same)
    exact given
  · rintro rfl
    exact (allSeeds process member confirms).1
  · rintro around is_ rfl
    obtain ⟨other,same,given,_⟩ := allMaterial process member ⟨around,is_,confirms⟩
    obtain rfl := Request.execClnHold.inj (is_.symm.trans same)
    exact given
  · rintro rfl
    exact (allHsm process member confirms).1
  · intro around is_
    obtain ⟨other,same,given,_⟩ := allWallets process member ⟨marker,around,confirms,is_⟩
    obtain rfl := Request.execProcessor.inj (is_.symm.trans same)
    exact given

/-- Native initialization is entered at most once in a run. -/
theorem run_once (run : Processes execute .io Surrounds code initial log state) : (log.map initializations).sum ≤ 1 := by
  have along : ∀ process ∈ log, Along execute Surrounds process.moments Steady := fun process member => by
    obtain ⟨_,trace,_⟩ := run.trace member
    exact steady_along trace
  refine sum_le_one (fun process member => (known_of_mem run member).initializations_le) ?_
  have between := run.between along .refl .trans fun _ _ changed => changed.steady
  refine between.imp_of_mem fun {later earlier} right left steady some_ => ?_
  by_contra again
  obtain ⟨⟨contents,wrote⟩,entered⟩ := wrote_of_initializations some_
  have earlierKnown := known_of_mem run left
  obtain ⟨_,trace,_⟩ := earlierKnown.trace
  have marks := bound_mem (earlierKnown.wrote_bound wrote)
  have marked := steady.markers _ marks _ (holds_marker trace marks (.inr wrote))
  -- The volume that the later start saw empty held the marker of the earlier one.
  have laterKnown := known_of_mem run right
  obtain ⟨⟨_,rewrote⟩,_⟩ := wrote_of_initializations (Nat.pos_of_ne_zero again)
  obtain ⟨moment,member,empty⟩ := laterKnown.empty rewrote
  obtain ⟨_,after,_⟩ := laterKnown.trace
  have there := (after.from_moment (steady_along after) member).1.markers _ marks _ marked
  exact absurd (empty _ _ there).2.1 nofun

end

end

/-! ### A wallet that is started twice -/

def sampleSeed : String :=
  "abandon abandon abandon abandon abandon abandon abandon abandon abandon abandon abandon about"

/-- The digest of the seed, and of no other text. -/
def sampleDigest (bytes : Bytes) : String :=
  if bytes = utf8 sampleSeed then "c557eec878dfd852ba3f88087c4f350f09c55537ab5e549c3cd14320ec3cef38"
  else String.ofList ('x' :: bytes.map fun byte => Char.ofNat byte.toNat)

theorem sampleDigest_injective : Function.Injective sampleDigest := by
  have other : ∀ {bytes : Bytes}, bytes ≠ utf8 sampleSeed → (sampleDigest bytes).toList.head? = some 'x' := by
    intro bytes differ
    rw [sampleDigest,if_neg differ,String.toList_ofList]
    rfl
  have seed : (sampleDigest (utf8 sampleSeed)).toList.head? ≠ some 'x' := by
    rw [sampleDigest,if_pos rfl]
    decide
  intro a b same
  by_cases left : a = utf8 sampleSeed
  · by_cases right : b = utf8 sampleSeed
    · exact left.trans right.symm
    · exact absurd (same ▸ other right) (left ▸ seed)
  · by_cases right : b = utf8 sampleSeed
    · exact absurd (same.symm ▸ other left) (right ▸ seed)
    · rw [sampleDigest,sampleDigest,if_neg left,if_neg right] at same
      exact Utf8.byteChar_injective.list_map (List.cons.inj (String.ofList_injective same)).2

@[reducible] def sampleHash : Hash := ⟨sampleDigest⟩

@[reducible] def sampleBip39 : Bip39 := ⟨fun text => if text = sampleSeed then some text else none,fun text => text = sampleSeed⟩

def sampleSurroundings : Surroundings :=
  ⟨fun name => if name = "BARK_PAYMENT_METHODS" then some "bolt11" else none,
    fun path => some (if path = "/processor-identity/mnemonic" then utf8 (sampleSeed ++ "\n") else [1])⟩

def sampleVolume : Machine := ⟨.empty,fun _ => none,"a1b2c3",true⟩

/-- The native program has made its databases. -/
def sampleRestart (machine : Machine) : Machine :=
  databases.foldl (fun machine name => machine.put [name] (.file [1])) machine

theorem databases_apart : ∀ name ∈ databases, name ∉ markers ∧ name ≠ lostAndFound := by decide

theorem sampleRestart_surrounds (machine : Machine) : Surrounds machine (sampleRestart machine) := by
  have each : ∀ path : Path, (∀ name ∈ databases, path ≠ [name]) → (sampleRestart machine).at_ path = machine.at_ path := by
    intro path other
    rw [sampleRestart,databases,List.foldl_cons,List.foldl_cons,List.foldl_nil,Machine.at_put (by simp),Machine.at_put (by simp),
      if_neg (other _ (by simp [databases])),if_neg (other _ (by simp [databases]))]
  refine ⟨fun marker member => each _ fun name there same => ?_,fun rest => each _ fun name there same => ?_⟩
  · exact (databases_apart name there).1 (List.singleton_inj.mp same ▸ member)
  · exact (databases_apart name there).2 (List.cons.inj same).1.symm

section
attribute [local instance] sampleHash sampleBip39

def sampleStart (machine : Machine) : Start := steppedProcess execute code 64 (.execProcessor sampleSurroundings) machine

def sampleFirst : Start := sampleStart sampleVolume

def sampleSecond : Start := sampleStart (sampleRestart sampleFirst.after)

theorem sample_run : Processes execute .io Surrounds code sampleVolume [sampleSecond,sampleFirst] sampleSecond.after := by
  have first : Processes execute .io Surrounds code sampleVolume [sampleFirst] sampleFirst.after := Processes.initial.stepped 64 _
  exact (first.disturb (sampleRestart_surrounds _)).stepped 64 _

end

end Proofstorm.Startup
