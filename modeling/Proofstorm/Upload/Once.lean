import Proofstorm.Upload.Steps

/-!
What the uploads of a workspace do over any run of `stage`, `commit` and
`finish`, each of which may be cut off between two operations or have any of
them fail: what each operation does to the receipts, to the targets and to the
staging (`execute_receipts`, `execute_replaced`, `execute_staging`), what from
this one call does, and what then holds of every run.
-/
namespace Proofstorm.Upload
open Proofstorm.Sequenced (Carries Record Run)
open Relation (ReflTransGen)

/-! ### What the operations do -/

/-- The transfer has nothing that was not there before. -/
structure Staged.Within (row old : Staged) : Prop where
  manifest : ∀ request ∈ row.manifest, request ∈ old.manifest
  payload : ∀ content ∈ row.payload, content ∈ old.payload

theorem Staged.Within.refl (row : Staged) : row.Within row := ⟨fun _ same => same,fun _ same => same⟩

theorem Staged.without_within (part : Part) (row : Staged) : (row.without part).Within row := by
  cases part with
  | manifest => exact ⟨fun _ impossible => (nomatch impossible),fun _ same => same⟩
  | payload => exact ⟨fun _ same => same,fun _ impossible => (nomatch impossible)⟩

/-- Whatever is staged under the id was staged before. -/
def Shrinks (id : String) (a b : Workspace) : Prop :=
  ∀ row, b.uploads.find id = some row → ∃ old, a.uploads.find id = some old ∧ row.Within old

variable {id : String} {a b w : Workspace}

theorem Shrinks.of_same (same : b.uploads.find id = a.uploads.find id) :
    Shrinks id a b :=
  fun row found => ⟨row,same ▸ found,.refl row⟩

theorem Shrinks.trans {c : Workspace} (first : Shrinks id a b) (second : Shrinks id b c) :
    Shrinks id a c := by
  intro row found
  obtain ⟨middle,there,within⟩ := second row found
  obtain ⟨old,here,inner⟩ := first middle there
  exact ⟨old,here,fun request member => inner.manifest request (within.manifest request member),
    fun content member => inner.payload content (within.payload content member)⟩

/-- An operation that stages the id. -/
def Operation.Adds (id : String) : Operation → Prop
  | .makeStaging uploadId => uploadId = id
  | .writeManifest request => request.uploadId = id
  | .writePayload uploadId _ => uploadId = id
  | _ => False

/-- An operation that removes the staging of the id. -/
def Operation.Drops (id : String) : Operation → Prop
  | .removePart uploadId _ => uploadId = id
  | .removeStaging uploadId => uploadId = id
  | _ => False

theorem manifest_key (request : UploadRequest) (row : Staged) : key { row with manifest := some request } = key row := rfl

theorem payload_key (content : Bytes) (row : Staged) : key { row with payload := some content } = key row := rfl

/-- What an operation that is not refused does. -/
def effect (operation : Operation) (w : Workspace) : Workspace :=
  match operation with
  | .openLock | .makeReceipts | .makeUploads | .syncParent => w
  | .writeReceipt request => { w with
    finished := (w.finished.delete fun old => old.uploadId = request.uploadId).insert request }
  | .removePart id part => { w with
    uploads := w.uploads.update (fun row => row.uploadId = id) (Staged.without part) (Staged.without_uploadId part) }
  | .removeStaging id => { w with uploads := w.uploads.delete fun row => row.uploadId = id }
  | .makeStaging id => { w with uploads := w.uploads.insert ⟨id,none,none⟩ }
  | .writeManifest request => { w with
    uploads := w.uploads.update (fun row => row.uploadId = request.uploadId)
      (fun row => { row with manifest := some request }) (manifest_key request) }
  | .writePayload id content => { w with
    uploads := w.uploads.update (fun row => row.uploadId = id) (fun row => { row with payload := some content })
      (payload_key content) }
  | .makeParent path => w.put path .directory
  | .replaceTarget request content => { w.put (segments request.path) (.file content request.executable) with
    replaced := (request,content) :: w.replaced }

theorem execute_effect {operation : Operation} (executed : execute operation a = .ok ((),b)) :
    b = effect operation a := by
  have same : ∀ {w : Workspace}, (Except.ok ((),w) : Except Failure (Unit × Workspace)) = .ok ((),b) → b = w :=
    fun done => by cases done; rfl
  cases operation with
  | removeStaging id =>
    simp only [execute,bind_ok,pure_ok] at executed
    obtain ⟨_,_,_,_,done⟩ := executed
    exact same (congrArg Except.ok done)
  | writeManifest request => exact (execute_manifest executed).1
  | writePayload id content => exact (execute_payload executed).1
  | makeParent path =>
    simp only [execute,bind_ok,pure_ok] at executed
    obtain ⟨_,_,_,_,done⟩ := executed
    exact same (congrArg Except.ok done)
  | replaceTarget request content =>
    simp only [execute,bind_ok,pure_ok] at executed
    obtain ⟨_,_,_,_,done⟩ := executed
    exact same (congrArg Except.ok done)
  | _ => exact same executed

theorem effect_receipts (operation : Operation) (w : Workspace) :
    (effect operation w).finished = w.finished ∨ ∃ request, operation = .writeReceipt request ∧
      ∀ id, (effect operation w).finished.find id = if request.uploadId = id then some request else w.finished.find id := by
  cases operation with
  | writeReceipt request =>
    refine .inr ⟨request,rfl,fun id => ?_⟩
    have rest := w.finished.find_delete_key request.uploadId id
    rw [effect,Table.find_insert]
    refine (congrArg (Option.or · _) rest).trans ?_
    by_cases same : request.uploadId = id
    · simp [same,key]
    · simp [same,Ne.symm same,key]
  | _ => exact .inl rfl

theorem effect_replaced (operation : Operation) (w : Workspace) :
    (effect operation w).replaced = w.replaced ∨ ∃ request content, operation = .replaceTarget request content ∧
      (effect operation w).replaced = (request,content) :: w.replaced := by
  cases operation with
  | replaceTarget request content => exact .inr ⟨request,content,rfl,rfl⟩
  | _ => exact .inl rfl

/-- What is staged under an id after an operation. -/
theorem effect_staging (operation : Operation) (id : String) (w : Workspace) :
    (effect operation w).uploads.find id = w.uploads.find id ∨
      (operation.Drops id ∧ Shrinks id w (effect operation w)) ∨ operation.Adds id := by
  have other : ∀ {name : String} {value found : Option Staged}, name ≠ id → found = (if id = name then value else w.uploads.find id) →
      found = w.uploads.find id := fun differs same => same.trans (if_neg (Ne.symm differs))
  cases operation with
  | removePart name part =>
    have found := w.uploads.find_update_key (Staged.without part) (Staged.without_uploadId part) name id
    by_cases same : name = id
    · refine .inr (.inl ⟨same,fun row here => ?_⟩)
      rw [if_pos same.symm] at found
      obtain ⟨old,there,rfl⟩ := Option.map_eq_some_iff.mp (found.symm.trans here)
      exact ⟨old,there,Staged.without_within part old⟩
    · exact .inl (other same found)
  | removeStaging name =>
    have found := w.uploads.find_delete_key name id
    by_cases same : name = id
    · refine .inr (.inl ⟨same,fun row here => ?_⟩)
      rw [if_pos same.symm] at found
      exact nomatch found.symm.trans here
    · exact .inl (other same found)
  | makeStaging name =>
    by_cases same : name = id
    · exact .inr (.inr same)
    · refine .inl ?_
      rw [effect,Table.find_insert,if_neg (show key (⟨name,none,none⟩ : Staged) ≠ id from same),Option.or_none]
  | writeManifest request =>
    have found := w.uploads.find_update_key (fun row => { row with manifest := some request }) (fun _ => rfl)
      request.uploadId id
    by_cases same : request.uploadId = id
    · exact .inr (.inr same)
    · exact .inl (other same found)
  | writePayload name content =>
    have found := w.uploads.find_update_key (fun row => { row with payload := some content }) (fun _ => rfl) name id
    by_cases same : name = id
    · exact .inr (.inr same)
    · exact .inl (other same found)
  | _ => exact .inl rfl

/-- The removal of a transfer leaves everything else alone. -/
theorem drops_keeps {operation : Operation} {other : String} (drops : operation.Drops id)
    (differs : id ≠ other) : (effect operation w).finished = w.finished ∧ (effect operation w).replaced = w.replaced ∧
      manifestOf other (effect operation w) = manifestOf other w := by
  have same : (effect operation w).uploads.find other = w.uploads.find other := by
    rcases effect_staging operation other w with same | ⟨also,_⟩ | adds
    · exact same
    · cases operation with
      | removePart name part => exact absurd (drops.symm.trans also) differs
      | removeStaging name => exact absurd (drops.symm.trans also) differs
      | _ => exact drops.elim
    · cases operation with
      | removePart name part => exact adds.elim
      | removeStaging name => exact adds.elim
      | _ => exact drops.elim
  rw [manifestOf,manifestOf,same]
  cases operation with
  | removePart name part => exact ⟨rfl,rfl,rfl⟩
  | removeStaging name => exact ⟨rfl,rfl,rfl⟩
  | _ => exact drops.elim

/-- The manifest under an id after an operation. -/
theorem effect_manifest (operation : Operation) (id : String) (w : Workspace) :
    (∀ request ∈ manifestOf id (effect operation w), request ∈ manifestOf id w) ∨
      ∃ request, operation = .writeManifest request ∧ request.uploadId = id ∧
        ∀ manifest ∈ manifestOf id (effect operation w), manifest = request := by
  rcases effect_staging operation id w with same | ⟨_,shrinks⟩ | adds
  · rw [manifestOf,manifestOf,same]
    exact .inl fun _ here => here
  · refine .inl fun request here => ?_
    obtain ⟨row,found,manifest⟩ := Option.bind_eq_some_iff.mp here
    obtain ⟨old,there,within⟩ := shrinks row found
    exact Option.bind_eq_some_iff.mpr ⟨old,there,within.manifest request manifest⟩
  · cases operation with
    | makeStaging name =>
      obtain rfl : name = id := adds
      refine .inl fun request here => ?_
      rw [manifestOf,effect,Table.find_insert] at here
      cases found : w.uploads.find name with
      | none => simp [found,key] at here
      | some old => simpa [manifestOf,found] using here
    | writeManifest request =>
      obtain rfl : request.uploadId = id := adds
      refine .inr ⟨request,rfl,rfl,fun manifest here => ?_⟩
      have found := w.uploads.find_update_key (fun row => { row with manifest := some request }) (fun _ => rfl)
        request.uploadId request.uploadId
      obtain ⟨row,there,same⟩ := Option.bind_eq_some_iff.mp here
      obtain ⟨old,_,rfl⟩ := Option.map_eq_some_iff.mp ((if_pos rfl).symm.trans (found.symm.trans there))
      exact (Option.some.inj same).symm
    | writePayload name content =>
      obtain rfl : name = id := adds
      refine .inl fun request here => ?_
      have found := w.uploads.find_update_key (fun row => { row with payload := some content }) (fun _ => rfl) name name
      obtain ⟨row,there,same⟩ := Option.bind_eq_some_iff.mp here
      obtain ⟨old,before,rfl⟩ := Option.map_eq_some_iff.mp ((if_pos rfl).symm.trans (found.symm.trans there))
      exact Option.bind_eq_some_iff.mpr ⟨old,before,same⟩
    | _ => exact adds.elim

/-- At most so many directories are staged, with at most so many bytes. -/
structure Bounded (w : Workspace) : Prop where
  directories : w.uploads.rows.length ≤ maxStagedUploads
  bytes : stagedBytes w.uploads.rows ≤ maxStagedBytes

theorem stagedBytes_split (id : String) (table : Table Staged) :
    stagedBytes table.rows = stagedBytes (others [id] table).rows + ((table.find id).map Staged.size).getD 0 := by
  rw [others_single]
  exact table.sum_rows Staged.size id

/-- A transfer that is rewritten, so that the others leave room for its bytes. -/
theorem Bounded.rewrite (bounded : Bounded w) (f : Staged → Staged)
    (keeps : ∀ row, key (f row) = key row)
    (room : ∀ row, w.uploads.find id = some row →
      stagedBytes (others [id] w.uploads).rows + (f row).size ≤ maxStagedBytes) :
    Bounded { w with uploads := w.uploads.update (fun row => row.uploadId = id) f keeps } := by
  have found : (w.uploads.update (fun row => row.uploadId = id) f keeps).find id = (w.uploads.find id).map f :=
    (w.uploads.find_update_key f keeps id id).trans (if_pos rfl)
  constructor
  · rw [Table.update,List.length_map]
    exact bounded.directories
  · rw [stagedBytes_split id,others_update,found]
    cases here : w.uploads.find id with
    | some row => exact room row here
    | none =>
      have bytes := bounded.bytes
      rw [stagedBytes_split id,here] at bytes
      exact bytes

theorem Bounded.removed (bounded : Bounded w) (id : String) :
    Bounded { w with uploads := w.uploads.delete fun row => row.uploadId = id } := by
  have same : w.uploads.delete (fun row => row.uploadId = id) = others [id] w.uploads := (others_single id w.uploads).symm
  constructor
  · exact Nat.le_trans (List.length_filter_le _ _) bounded.directories
  · have bytes := bounded.bytes
    rw [stagedBytes_split id] at bytes
    show stagedBytes (w.uploads.delete fun row => row.uploadId = id).rows ≤ maxStagedBytes
    rw [same]
    omega

theorem Bounded.made (bounded : Bounded w)
    (room : (others [id] w.uploads).rows.length < maxStagedUploads) :
    Bounded { w with uploads := w.uploads.insert ⟨id,none,none⟩ } := by
  have rest : others [id] (w.uploads.insert ⟨id,none,none⟩) = others [id] w.uploads :=
    Table.delete_insert _ _ _ (by simp)
  constructor
  · show (w.uploads.insert ⟨id,none,none⟩).rows.length ≤ maxStagedUploads
    rw [Table.length_rows _ id,← others_single,rest]
    split <;> omega
  · have bytes := bounded.bytes
    rw [stagedBytes_split id] at bytes
    show stagedBytes (w.uploads.insert ⟨id,none,none⟩).rows ≤ maxStagedBytes
    rw [stagedBytes_split id,rest,Table.find_insert]
    cases here : w.uploads.find id with
    | some row => simpa [here] using bytes
    | none => simpa [here,key,Staged.size] using bytes

theorem Bounded.effect [Hash] {command : Command} {before w : Workspace} {operation : Operation} (bounded : Bounded w)
    (allowed : Allowed command before operation w) : Bounded (effect operation w) := by
  have room : ∀ {id : String} {row : Staged}, w.uploads.find id = some row →
      stagedBytes (others [id] w.uploads).rows + row.size ≤ maxStagedBytes := by
    intro id row here
    have bytes := bounded.bytes
    rw [stagedBytes_split id,here] at bytes
    exact bytes
  cases operation with
  | removePart id part =>
    refine bounded.rewrite _ _ fun row here => ?_
    have less : (row.without part).size ≤ row.size := by
      cases part with
      | manifest => exact Nat.le_refl _
      | payload => exact Nat.zero_le _
    exact Nat.le_trans (Nat.add_le_add_left less _) (room here)
  | removeStaging id => exact bounded.removed id
  | makeStaging id => exact bounded.made allowed.2.2
  | writeManifest request =>
    refine bounded.rewrite _ _ fun row here => ?_
    have fits := room here
    exact fits
  | writePayload id content => exact bounded.rewrite _ _ fun row _ => allowed.2.2.2
  | _ => exact ⟨bounded.directories,bounded.bytes⟩

/-! ### What one call does -/

theorem Disturbs.steps {env : Workspace → Workspace → Prop} (quiet : ∀ a b, env a b → Disturbs a b) {a b : Workspace} (steps : ReflTransGen env a b) :
    Disturbs a b :=
  .all (ReflTransGen.mono quiet _ _ steps)

section
variable [Hash] {env : Workspace → Workspace → Prop} {command : Command} {before after : Workspace}
  {reply : Option (Except Failure Receipt)}

/-- What others and the operations of a call keep is kept by the call, wherever it is cut. -/
theorem carries_keeps (carries : Carries execute .io env (code command) before reply after)
    (quiet : ∀ a b, env a b → Disturbs a b) (kept : Workspace → Prop) (first : kept before)
    (stable : ∀ a b, kept a → env a b → kept b)
    (own : ∀ operation a, kept a → Allowed command before operation a → kept (effect operation a)) :
    kept after ∧ ∀ outcome, reply = some outcome → Achieved command before outcome after := by
  refine carries.meets ((code_meets command before).undisturbed quiet) first stable ?_
  intro operation a _ b holds allowed executed
  exact execute_effect executed ▸ own operation a holds allowed

/-- A receipt is there for good. -/
theorem effect_receipt {operation : Operation} {receipt : UploadRequest}
    (allowed : Allowed command before operation w) (there : w.finished.find id = some receipt) :
    (effect operation w).finished.find id = some receipt := by
  rcases effect_receipts operation w with same | ⟨request,rfl,found⟩
  · rw [same]
    exact there
  · rw [found id]
    split
    · rename_i alike
      obtain ⟨rfl,free,_⟩ := allowed
      rw [Command.id,alike,there] at free
      exact nomatch free
    · exact there

section
variable (carries : Carries execute .io env (code command) before reply after) (quiet : ∀ a b, env a b → Disturbs a b)
include carries quiet

theorem receipts_stay {id : String} {receipt : UploadRequest}
    (there : before.finished.find id = some receipt) : after.finished.find id = some receipt := by
  refine (carries_keeps carries quiet (fun w => w.finished.find id = some receipt) there ?_ ?_).1
  · intro a b here disturbs
    rw [(quiet a b disturbs).finished]
    exact here
  · exact fun operation a here allowed => effect_receipt allowed here

/-- At most its own target is replaced, with bytes that are verified, and before the transfer has a receipt. -/
theorem replaces_own :
    after.replaced = before.replaced ∨ (before.finished.find command.id = none ∧
      ∃ content, verify command.request content = .ok () ∧
        after.replaced = (command.request,content) :: before.replaced) := by
  let kept := fun w : Workspace =>
    (∀ receipt, before.finished.find command.id = some receipt → w.finished.find command.id = some receipt) ∧
      (w.replaced = before.replaced ∨ (before.finished.find command.id = none ∧
        ∃ content, verify command.request content = .ok () ∧ w.replaced = (command.request,content) :: before.replaced))
  refine (carries_keeps carries quiet kept ⟨fun _ here => here,.inl rfl⟩ ?_ ?_).1.2
  · intro a b holds disturbs
    have same := quiet a b disturbs
    refine ⟨?_,?_⟩
    · rw [same.finished]
      exact holds.1
    · rw [same.replaced]
      exact holds.2
  · intro operation a holds allowed
    refine ⟨fun receipt here => effect_receipt allowed (holds.1 receipt here),?_⟩
    rcases effect_replaced operation a with same | ⟨request,content,rfl,pushed⟩
    · rw [same]
      exact holds.2
    · obtain ⟨⟨_,free,_⟩,rfl,verified,still⟩ := allowed
      rw [still] at pushed
      refine .inr ⟨?_,content,verified,pushed⟩
      cases found : before.finished.find command.id with
      | none => rfl
      | some receipt => exact (holds.1 receipt found).symm.trans free

theorem stays_bounded (bounded : Bounded before) : Bounded after := by
  refine (carries_keeps carries quiet Bounded bounded ?_ fun _ _ holds allowed => holds.effect allowed).1
  intro a b holds disturbs
  have same := (quiet a b disturbs).uploads
  constructor
  · rw [same]
    exact holds.directories
  · rw [same]
    exact holds.bytes

/-- A transfer with a receipt is not staged again. -/
theorem stays_closed {id : String} {receipt : UploadRequest}
    (there : before.finished.find id = some receipt) : Shrinks id before after := by
  let kept := fun w : Workspace => w.finished.find id = some receipt ∧ Shrinks id before w
  refine (carries_keeps carries quiet kept ⟨there,.of_same rfl⟩ ?_ ?_).1.2
  · intro a b holds disturbs
    have same := quiet a b disturbs
    refine ⟨?_,holds.2.trans (.of_same ?_)⟩
    · rw [same.finished]
      exact holds.1
    · rw [same.uploads]
  · intro operation a holds allowed
    refine ⟨effect_receipt allowed holds.1,holds.2.trans ?_⟩
    rcases effect_staging operation id a with same | ⟨_,shrinks⟩ | adds
    · exact .of_same same
    · exact shrinks
    · have stages : command.Stages a ∧ command.id = id := by
        cases operation with
        | makeStaging name => exact ⟨allowed.1,allowed.2.1.symm.trans adds⟩
        | writeManifest request => exact ⟨allowed.1,(congrArg UploadRequest.uploadId allowed.2.1).symm.trans adds⟩
        | writePayload name content => exact ⟨allowed.1,allowed.2.1.symm.trans adds⟩
        | _ => exact adds.elim
      obtain ⟨⟨_,free⟩,rfl⟩ := stages
      exact nomatch holds.1.symm.trans free
end

/-! ### Different requests under one id -/

/-- The receipt of a transfer is for the request that is staged. -/
def Agree (w : Workspace) : Prop :=
  ∀ id receipt manifest, w.finished.find id = some receipt → manifestOf id w = some manifest → manifest = receipt

/-- A call of `finish` has the request that is staged, if any is. -/
def Command.Fits (command : Command) (w : Workspace) : Prop :=
  ∀ around request, command = .finish around request →
    ∀ manifest, manifestOf request.uploadId w = some manifest → manifest = request

theorem stays_agreed (carries : Carries execute .io env (code command) before reply after)
    (quiet : ∀ a b, env a b → Disturbs a b) (agree : Agree before) (fits : command.Fits before) : Agree after := by
  let kept := fun w : Workspace => Agree w ∧ (w.finished.find command.id = none → command.Fits w)
  refine (carries_keeps carries quiet kept ⟨agree,fun _ => fits⟩ ?_ ?_).1.1
  · intro a b holds disturbs
    have same := quiet a b disturbs
    refine ⟨fun id receipt manifest there staged => holds.1 id receipt manifest ?_ ?_,fun free around request is manifest staged =>
      holds.2 ?_ around request is manifest ?_⟩
    · rw [← same.finished]
      exact there
    · rw [← same.manifestOf]
      exact staged
    · rw [← same.finished]
      exact free
    · rw [← same.manifestOf]
      exact staged
  · intro operation a holds allowed
    obtain ⟨agreed,fitting⟩ := holds
    refine ⟨fun id receipt manifest there staged => ?_,fun free around request is manifest staged => ?_⟩
    · rcases effect_receipts operation a with same | ⟨request,rfl,found⟩
      · rw [same] at there
        rcases effect_manifest operation id a with within | ⟨request,rfl,rfl,_⟩
        · exact agreed id receipt manifest there (within manifest staged)
        · obtain ⟨⟨_,free⟩,rfl,_⟩ := allowed
          exact nomatch free.symm.trans there
      · rw [found id] at there
        split at there
        · rename_i alike
          obtain ⟨rfl,free,finishes⟩ := allowed
          cases there
          rcases finishes with ⟨around,request,is⟩ | ⟨_,_,committed⟩
          · have own : command.request = request := by rw [is,Command.request]
            rw [own]
            exact fitting free around request is manifest (by rw [← own,alike]; exact staged)
          · rw [Command.id,alike] at committed
            exact Option.some.inj (staged.symm.trans committed)
        · exact agreed id receipt manifest there staged
    · have unfinished : a.finished.find command.id = none := by
        cases found : a.finished.find command.id with
        | none => rfl
        | some receipt => exact nomatch free.symm.trans (effect_receipt allowed found)
      rcases effect_manifest operation request.uploadId a with within | ⟨other,rfl,_⟩
      · exact fitting unfinished around request is manifest (within manifest staged)
      · obtain ⟨⟨⟨_,_,_,stages⟩,_⟩,_⟩ := allowed
        exact nomatch is.symm.trans stages

/-- An operation that does anything finds the transfer not finished, or finished with this request. -/
theorem allowed_open {operation : Operation} (allowed : Allowed command before operation w) :
    effect operation w = w ∨ w.finished.find command.id = none ∨ w.finished.find command.id = some command.request := by
  cases operation with
  | writeReceipt request => exact .inr (.inl allowed.2.1)
  | removePart id part => exact .inr (allowed.imp (fun stages => stages.1.2) fun own => own.2)
  | removeStaging id => exact .inr (allowed.imp (fun stages => stages.1.2) fun own => own.2)
  | makeStaging id => exact .inr (.inl allowed.1.2)
  | writeManifest request => exact .inr (.inl allowed.1.2)
  | writePayload id content => exact .inr (.inl allowed.1.2)
  | makeParent path => exact .inr (.inl allowed.2.1)
  | replaceTarget request content => exact .inr (.inl allowed.1.2.1)
  | _ => exact .inl rfl

/-- A different request under a finished id is refused, and nothing is changed. -/
theorem refused_finished (carries : Carries execute .io env (code command) before reply after)
    (quiet : ∀ a b, env a b → Disturbs a b) {receipt : UploadRequest}
    (there : before.finished.find command.id = some receipt) (differs : receipt ≠ command.request) :
    ReflTransGen env before after ∧ ∀ value, reply ≠ some (.ok value) := by
  have receipted : ∀ {w}, ReflTransGen env before w → w.finished.find command.id = some receipt := by
    intro w steps
    rw [(Disturbs.steps quiet steps).finished]
    exact there
  obtain ⟨steps,achieved⟩ := carries_keeps carries quiet (fun w => ReflTransGen env before w) .refl
    (fun a b steps disturbs => steps.tail disturbs) (fun operation a steps allowed => by
      rcases allowed_open allowed with same | free | own
      · rw [same]
        exact steps
      · exact nomatch (receipted steps).symm.trans free
      · exact absurd (Option.some.inj ((receipted steps).symm.trans own)) differs)
  refine ⟨steps,fun value replied => ?_⟩
  have done := achieved _ replied
  have here := receipted steps
  cases command with
  | stage around request input =>
    rcases done with own | ⟨free,_⟩
    · exact differs (Option.some.inj (here.symm.trans own))
    · exact nomatch here.symm.trans free
  | commit around request =>
    obtain ⟨content,replaced⟩ := done
    rw [(Disturbs.steps quiet steps).replaced] at replaced
    exact List.cons_ne_self _ _ replaced.symm
  | finish around request => exact differs (Option.some.inj (here.symm.trans done))

/-- A transfer among these is being removed. -/
def Expires (ids : List String) (a b : Workspace) : Prop :=
  ∃ id ∈ ids, ∃ operation : Operation, operation.Drops id ∧ b = effect operation a

/-- An operation that does anything where another request is staged removes an abandoned transfer. -/
theorem allowed_staged {operation : Operation} (allowed : Allowed command before operation w)
    {manifest : UploadRequest} (staged : manifestOf command.id w = some manifest) (differs : manifest ≠ command.request)
    (unfinished : w.finished.find command.id ≠ some command.request)
    (finishes : ∀ around request, command ≠ .finish around request) :
    effect operation w = w ∨ ∃ id ∈ command.expired, operation.Drops id := by
  have commits : ¬ command.Commits w := by
    rintro ⟨_,_,own⟩
    exact differs (Option.some.inj (staged.symm.trans own))
  have removes : ∀ id, command.Removes id w → id ∈ command.expired := by
    rintro id (⟨_,expired⟩ | ⟨_,own⟩)
    · exact expired
    · exact absurd own unfinished
  cases operation with
  | writeReceipt request =>
    obtain ⟨_,_,⟨around,own,is⟩ | committed⟩ := allowed
    · exact absurd is (finishes around own)
    · exact absurd committed commits
  | removePart id part => exact .inr ⟨id,removes id allowed,rfl⟩
  | removeStaging id => exact .inr ⟨id,removes id allowed,rfl⟩
  | makeStaging id =>
    obtain ⟨_,rfl,_⟩ := allowed
    obtain ⟨row,found,_⟩ := Option.bind_eq_some_iff.mp staged
    have taken : w.uploads.has command.id := Table.has_of_find found
    refine .inl ?_
    rw [effect,Table.insert_of_taken taken]
  | writeManifest request =>
    obtain ⟨_,rfl,same⟩ := allowed
    exact absurd (same manifest staged) differs
  | writePayload id content =>
    obtain ⟨_,rfl,own,_⟩ := allowed
    exact absurd (Option.some.inj (staged.symm.trans own)) differs
  | makeParent path => exact absurd allowed commits
  | replaceTarget request content => exact absurd allowed.1 commits
  | _ => exact .inl rfl

/-- A different request under a staged id is refused, and nothing is changed but
    that abandoned transfers are removed. -/
theorem refused_staged (carries : Carries execute .io env (code command) before reply after)
    (quiet : ∀ a b, env a b → Disturbs a b) (agree : Agree before) (fits : command.Fits before)
    {manifest : UploadRequest} (there : manifestOf command.id before = some manifest)
    (differs : manifest ≠ command.request) (stays : command.id ∉ command.expired) :
    ReflTransGen (fun a b => env a b ∨ Expires command.expired a b) before after ∧ ∀ value, reply ≠ some (.ok value) := by
  have unfinished : before.finished.find command.id ≠ some command.request := by
    intro own
    exact differs (agree _ _ _ own there)
  have finishes : ∀ around request, command ≠ .finish around request := by
    rintro around request rfl
    exact differs (fits around request rfl manifest there)
  let kept := fun w : Workspace => w.finished = before.finished ∧ w.replaced = before.replaced ∧
    manifestOf command.id w = some manifest ∧
      ReflTransGen (fun a b => env a b ∨ Expires command.expired a b) before w
  obtain ⟨⟨finished,replaced,staged,steps⟩,achieved⟩ := carries_keeps carries quiet kept ⟨rfl,rfl,there,.refl⟩
    (by
      rintro a b ⟨finished,replaced,staged,steps⟩ disturbs
      have same := quiet a b disturbs
      exact ⟨same.finished.trans finished,same.replaced.trans replaced,(same.manifestOf _).trans staged,
        steps.tail (.inl disturbs)⟩)
    (by
      rintro operation a ⟨finished,replaced,staged,steps⟩ allowed
      rcases allowed_staged allowed staged differs (finished ▸ unfinished) finishes with same | ⟨id,expired,drops⟩
      · rw [same]
        exact ⟨finished,replaced,staged,steps⟩
      · obtain ⟨receipts,targets,own⟩ := drops_keeps drops (w := a) fun same : id = command.id => stays (same ▸ expired)
        exact ⟨receipts.trans finished,targets.trans replaced,own.trans staged,
          steps.tail (.inr ⟨id,expired,operation,drops,rfl⟩)⟩)
  refine ⟨steps,fun value replied => ?_⟩
  have done := achieved _ replied
  cases command with
  | stage around request input =>
    rcases done with own | ⟨_,own⟩
    · exact unfinished (finished ▸ own)
    · exact differs (Option.some.inj (staged.symm.trans own))
  | commit around request =>
    obtain ⟨content,pushed⟩ := done
    rw [replaced] at pushed
    exact List.cons_ne_self _ _ pushed.symm
  | finish around request => exact unfinished (finished ▸ done)
end

end Proofstorm.Upload
