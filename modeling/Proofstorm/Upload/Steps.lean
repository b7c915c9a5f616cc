import Proofstorm.Upload.Calls

/-!
What a call on uploads does to the workspace, whatever happens to the files
outside `.proofstorm` meanwhile: each of its operations finds what it needs
(`Allowed`), and a reply says what the call has done (`Achieved`).
-/
namespace Proofstorm.Upload
open Proofstorm.Interleaving
open Relation (ReflTransGen)

/-- Whoever works in the workspace leaves `.proofstorm` alone. -/
structure Disturbs (a b : Workspace) : Prop where
  uploads : b.uploads = a.uploads
  finished : b.finished = a.finished
  replaced : b.replaced = a.replaced

theorem Disturbs.refl (w : Workspace) : Disturbs w w := ⟨rfl,rfl,rfl⟩

variable {a b w : Workspace} {left right : List String} {retained : Nat}

theorem Disturbs.trans {c : Workspace} (first : Disturbs a b) (second : Disturbs b c) : Disturbs a c :=
  ⟨second.uploads.trans first.uploads,second.finished.trans first.finished,second.replaced.trans first.replaced⟩

theorem Disturbs.all (steps : ReflTransGen Disturbs a b) : Disturbs a b := by
  induction steps with
  | refl => exact .refl a
  | tail _ step ih => exact ih.trans step

theorem Disturbs.manifestOf (disturbs : Disturbs a b) (uploadId : String) :
    manifestOf uploadId b = manifestOf uploadId a := by
  rw [Upload.manifestOf,Upload.manifestOf,disturbs.uploads]

/-! ### Tables of transfers -/

/-- The transfers under other ids than these. -/
def others (ids : List String) (table : Table Staged) : Table Staged :=
  table.delete fun row => row.uploadId ∈ ids

theorem others_congr (same : ∀ id, id ∈ left ↔ id ∈ right) (table : Table Staged) :
    others left table = others right table := by
  apply Table.ext
  refine List.filter_congr fun row _ => ?_
  simp [same row.uploadId]

theorem others_cons (id : String) (ids : List String) (table : Table Staged) :
    others (id :: ids) table = (others ids table).delete fun row => key row = id := by
  apply Table.ext
  simp only [others,Table.delete,List.filter_filter]
  refine List.filter_congr fun row _ => ?_
  by_cases same : row.uploadId = id <;> simp [same,key]

theorem others_single (id : String) (table : Table Staged) :
    others [id] table = table.delete fun row => key row = id := by
  apply Table.ext
  simp [others,Table.delete,key]

theorem find_others {ids : List String} {table : Table Staged} {id : String} (other : id ∉ ids) :
    (others ids table).find id = table.find id := by
  rw [others,Table.find_delete]
  cases found : table.find id with
  | none => rfl
  | some row =>
    have same : row.uploadId = id := (Table.find_eq_some.mp found).2
    simp [same,other]

/-- What happens to the transfer under an id leaves the others alone. -/
theorem others_update (id : String) (f : Staged → Staged) (keeps : ∀ row, key (f row) = key row)
    (table : Table Staged) : others [id] (table.update (fun row => row.uploadId = id) f keeps) = others [id] table :=
  Table.delete_update _ _ _ _ _ fun row here =>
    ⟨List.mem_singleton.mpr here,List.mem_singleton.mpr ((keeps row).trans here)⟩

theorem others_all (table : Table Staged) : (others (table.rows.map Staged.uploadId) table).rows = [] := by
  refine List.filter_eq_nil_iff.mpr fun row member => ?_
  simpa using List.mem_map_of_mem (f := Staged.uploadId) member

theorem size_find (uploadId : String) (w : Workspace) :
    ((w.uploads.find uploadId).map Staged.size).getD 0 = ((payloadOf uploadId w).map List.length).getD 0 := by
  cases found : w.uploads.find uploadId <;> simp [payloadOf,found,Staged.size]

/-- Whether a call found so many transfers of other ids than these, and so many bytes of their payloads. -/
structure Counted (ids : List String) (count retained : Nat) (w : Workspace) : Prop where
  directories : (others ids w.uploads).rows.length ≤ count
  bytes : stagedBytes (others ids w.uploads).rows ≤ retained

theorem Counted.congr {count : Nat}
    (counted : Counted left count retained w) (same : ∀ id, id ∈ left ↔ id ∈ right) : Counted right count retained w := by
  constructor
  · rw [← others_congr same]
    exact counted.directories
  · rw [← others_congr same]
    exact counted.bytes

theorem Counted.disturb {ids : List String} {count : Nat}
    (counted : Counted ids count retained a) (disturbs : Disturbs a b) : Counted ids count retained b := by
  constructor
  · rw [disturbs.uploads]
    exact counted.directories
  · rw [disturbs.uploads]
    exact counted.bytes

/-- One more transfer is counted with its bytes. -/
theorem Counted.next {id : String} {ids : List String} {count : Nat}
    (counted : Counted (id :: ids) count retained w) :
    Counted ids (count + 1) (retained + ((payloadOf id w).map List.length).getD 0) w := by
  by_cases other : id ∈ ids
  · obtain ⟨directories,bytes⟩ := counted.congr (show ∀ other, _ ↔ other ∈ ids by simpa using other)
    exact ⟨by omega,by omega⟩
  · obtain ⟨directories,bytes⟩ := counted
    rw [others_cons] at directories bytes
    constructor
    · rw [Table.length_rows _ id]
      split <;> omega
    · have split := (others ids w.uploads).sum_rows Staged.size id
      rw [find_others other,size_find] at split
      rw [stagedBytes] at bytes ⊢
      omega

/-- A transfer that is gone need not be left out. -/
theorem Counted.gone {id : String} {ids : List String} {count : Nat} {before now : Workspace}
    (counted : Counted (id :: ids) count retained before)
    (gone : now.uploads = before.uploads.delete fun row => row.uploadId = id) : Counted ids count retained now := by
  have same : others ids now.uploads = others (id :: ids) before.uploads := by
    rw [gone]
    apply Table.ext
    simp only [others,Table.delete,List.filter_filter]
    refine List.filter_congr fun row _ => ?_
    by_cases here : row.uploadId = id <;> simp [here]
  exact ⟨same ▸ counted.directories,same ▸ counted.bytes⟩

/-! ### The removal of a transfer -/

/-- What the removal of a transfer has done, when it succeeded and when not. -/
def Removed (id : String) (before : Workspace) (outcome : Except Failure Unit) (now : Workspace) : Prop :=
  now.finished = before.finished ∧ now.replaced = before.replaced ∧
    (outcome = .ok () → now.uploads = before.uploads.delete fun row => row.uploadId = id)

section
variable {needs : Operation → Workspace → Prop}

/-- The transfer is being removed: the other transfers, the receipts and what was replaced are as before. -/
structure Removing (id : String) (before now : Workspace) : Prop where
  finished : now.finished = before.finished
  replaced : now.replaced = before.replaced
  uploads : (now.uploads.delete fun row => row.uploadId = id) = before.uploads.delete fun row => row.uploadId = id

variable {before : Workspace}

theorem Removing.disturb {id : String} (removing : Removing id before a)
    (steps : ReflTransGen Disturbs a b) : Removing id before b := by
  have disturbs := Disturbs.all steps
  exact ⟨disturbs.finished.trans removing.finished,disturbs.replaced.trans removing.replaced,
    disturbs.uploads ▸ removing.uploads⟩

theorem Removing.failed {id : String} {now : Workspace} (removing : Removing id before now) (error : Failure) :
    Removed id before (.error error) now :=
  ⟨removing.finished,removing.replaced,nofun⟩

theorem Removing.part {id : String} {part : Part} (removing : Removing id before a)
    (executed : execute (.removePart id part) a = .ok ((),b)) : Removing id before b := by
  cases executed
  refine ⟨removing.finished,removing.replaced,?_⟩
  rw [Table.delete_update _ _ _ _ _ fun row chosen => ⟨chosen,(Staged.without_uploadId part row).trans chosen⟩]
  exact removing.uploads

theorem removeDirAll_meets (around : Surroundings) (id : String) (before : Workspace)
    (may : ∀ now, now.finished = before.finished → (∀ part, needs (.removePart id part) now) ∧ needs (.removeStaging id) now) :
    (removeDirAll around id).run.Meets execute Disturbs needs (Removed id before) before := by
  have stable : ∀ a b, Removing id before a → ReflTransGen Disturbs a b → Removing id before b :=
    fun _ _ removing steps => removing.disturb steps
  have failed : ∀ error now, Removing id before now → Removed id before (.error error) now :=
    fun error _ removing => removing.failed error
  refine .afterQuery_kept stable ⟨rfl,rfl,rfl⟩ failed fun seen _ start _ => ?_
  refine .afterSubmit_kept stable start failed (fun now there => (may now there.finished).1 _) fun _ _ first there one => ?_
  have once := there.part one
  refine .afterSubmit_kept stable once failed (fun now there => (may now there.finished).1 _) fun _ _ second there two => ?_
  intro last steps
  have twice := (there.part two).disturb steps
  refine ⟨(may last twice.finished).2,fun _ after executed now more => ?_,fun error now more => failed error now (twice.disturb more)⟩
  simp only [execute,bind_ok,pure_ok] at executed
  obtain ⟨_,_,_,_,done⟩ := executed
  cases done
  have disturbs := Disturbs.all more
  exact ⟨disturbs.finished.trans twice.finished,disturbs.replaced.trans twice.replaced,
    fun _ => disturbs.uploads.trans twice.uploads⟩

/-! ### The receipt of a transfer -/

/-- What the end of a transfer has done, when it succeeded and when not. -/
def Ended (request : UploadRequest) (before : Workspace) (outcome : Except Failure UploadRequest) (now : Workspace) :
    Prop :=
  now.replaced = before.replaced ∧
    ∀ receipt, outcome = .ok receipt → now.finished.find request.uploadId = some request

/-- The transfer has its receipt, and nothing was replaced since. -/
def Receipted (request : UploadRequest) (before now : Workspace) : Prop :=
  now.replaced = before.replaced ∧ now.finished.find request.uploadId = some request

theorem Receipted.disturb {request : UploadRequest} (receipted : Receipted request before a)
    (steps : ReflTransGen Disturbs a b) : Receipted request before b := by
  have disturbs := Disturbs.all steps
  exact ⟨disturbs.replaced.trans receipted.1,disturbs.finished ▸ receipted.2⟩

theorem release_meets (around : Surroundings) (request : UploadRequest) (before : Workspace)
    (receipt : before.finished.find request.uploadId = some request)
    (may : ∀ now : Workspace, now.finished.find request.uploadId = some request →
      (∀ part, needs (.removePart request.uploadId part) now) ∧ needs (.removeStaging request.uploadId) now) :
    (release around request).run.Meets execute Disturbs needs (Ended request before) before := by
  have removal := removeDirAll_meets around request.uploadId before fun now same => may now (same ▸ receipt)
  refine .afterAttempt removal fun outcome now removed => ?_
  have receipted : Receipted request before now := ⟨removed.2.1,removed.1 ▸ receipt⟩
  split
  · exact fun last steps => ⟨(receipted.disturb steps).1,fun _ _ => (receipted.disturb steps).2⟩
  · exact fun last steps => ⟨(receipted.disturb steps).1,fun _ _ => (receipted.disturb steps).2⟩
  · exact fun last steps => ⟨(receipted.disturb steps).1,nofun⟩

theorem finished_false {request : UploadRequest} (free : finished request w = .ok false) :
    w.finished.find request.uploadId = none := by
  unfold finished at free
  split at free
  · assumption
  · simp only [bind_ok,pure_ok] at free
    obtain ⟨_,_,impossible⟩ := free
    exact absurd impossible (by decide)

theorem finished_true {request : UploadRequest} (done : finished request w = .ok true) :
    w.finished.find request.uploadId = some request := by
  unfold finished at done
  split at done
  · exact absurd (Except.ok.inj done) (by decide)
  · rename_i receipt found
    simp only [bind_ok,ensure_ok] at done
    obtain ⟨_,rfl,_⟩ := done
    exact found

theorem execute_idle {operation : Operation} (idle : execute operation a = .ok ((),a))
    (executed : execute operation a = .ok ((),b)) : b = a := by
  rw [idle] at executed
  cases executed
  rfl

theorem finishLocked_meets (around : Surroundings) (request : UploadRequest) (before : Workspace)
    (idle : ∀ now, needs .makeReceipts now ∧ needs .syncParent now)
    (write : ∀ now, Disturbs before now → now.finished.find request.uploadId = none → needs (.writeReceipt request) now)
    (may : ∀ now : Workspace, now.finished.find request.uploadId = some request →
      (∀ part, needs (.removePart request.uploadId part) now) ∧ needs (.removeStaging request.uploadId) now) :
    (finishLocked around request).run.Meets execute Disturbs needs (Ended request before) before := by
  have stable : ∀ a b, Disturbs before a → ReflTransGen Disturbs a b → Disturbs before b :=
    fun _ _ same steps => same.trans (.all steps)
  have failed : ∀ error now, Disturbs before now → Ended request before (.error error) now :=
    fun _ _ same => ⟨same.replaced,nofun⟩
  refine .afterSubmit_kept stable (.refl before) failed (fun now _ => (idle now).1) fun now _ after here made => ?_
  obtain rfl : after = now := execute_idle rfl made
  refine .afterQuery_kept stable here failed fun seen done there found => ?_
  cases done with
  | true =>
    have released := release_meets around request seen (finished_true found) may
    exact released.mono fun outcome last ended => ⟨ended.1.trans there.replaced,ended.2⟩
  | false =>
    have free := finished_false found
    show (exec (.writeReceipt request) >>= fun _ => exec .syncParent >>= fun _ => release around request).run.Meets
      execute Disturbs needs (Ended request before) seen
    have same : ∀ now, Disturbs before now → now.finished.find request.uploadId = none := by
      intro now disturbs
      rw [disturbs.finished,← there.finished]
      exact free
    refine .afterSubmit_kept stable there failed (fun now disturbs => write now disturbs (same now disturbs))
      fun now _ after disturbs wrote => ?_
    have written : Receipted request before after := by
      cases wrote
      refine ⟨disturbs.replaced,?_⟩
      rw [Table.find_insert,Table.find_delete]
      simp [same now disturbs,key]
    refine .afterSubmit_kept (fun _ _ holds steps => holds.disturb steps) written (fun _ _ holds => ⟨holds.1,nofun⟩)
      (fun now _ => (idle now).2) fun now _ last holds flushed => ?_
    obtain rfl : last = now := execute_idle rfl flushed
    have released := release_meets around request last holds.2 may
    exact released.mono fun outcome last ended => ⟨ended.1.trans holds.1,ended.2⟩

/-! ### The removal of abandoned transfers -/

theorem scan_meets (around : Surroundings) (own : String) (entries : List String) (count retained : Nat)
    (before : Workspace) (counted : Counted (own :: entries) count retained before)
    (may : ∀ id ∈ around.abandoned, ∀ now, now.finished = before.finished →
      (∀ part, needs (.removePart id part) now) ∧ needs (.removeStaging id) now) :
    (scan around own entries count retained).run.Meets execute Disturbs needs (OnSuccess fun counts now =>
      now.finished = before.finished ∧ now.replaced = before.replaced ∧ Counted [own] counts.1 counts.2 now) before := by
  induction entries generalizing count retained before with
  | nil =>
    intro now steps
    have disturbs := Disturbs.all steps
    exact ⟨disturbs.finished,disturbs.replaced,counted.disturb disturbs⟩
  | cons entry rest ih =>
    have onward : ∀ (found bytes : Nat) (now : Workspace), now.finished = before.finished →
        now.replaced = before.replaced → Counted (own :: rest) found bytes now →
          (scan around own rest found bytes).run.Meets execute Disturbs needs (OnSuccess fun counts last =>
            last.finished = before.finished ∧ last.replaced = before.replaced ∧
              Counted [own] counts.1 counts.2 last) now := by
      intro found bytes now finished replaced here
      have later := ih found bytes now here fun id member last alike => may id member last (alike.trans finished)
      rw [finished,replaced] at later
      exact later
    have counted : Counted (entry :: own :: rest) count retained before :=
      counted.congr fun id => by simp only [List.mem_cons]; tauto
    unfold scan
    split
    · rename_i expired
      refine .andThen (show Call.Meets _ _ _ (OnSuccess fun _ now => Removed entry before (.ok ()) now) _ _ from ?_) (fun _ _ => trivial) ?_
      · refine (removeDirAll_meets around entry before (may entry expired)).mono fun outcome now removed => ?_
        cases outcome with
        | ok => exact removed
        | error => exact trivial
      · rintro _ now ⟨finished,replaced,gone⟩
        exact onward count retained now finished replaced (counted.gone (gone rfl))
    · split
      · refine .afterQuery (fun _ _ => trivial) fun seen held steps found => ?_
        cases found
        have disturbs := Disturbs.all steps
        exact onward _ _ seen disturbs.finished disturbs.replaced (counted.disturb disturbs).next
      · rename_i own_
        obtain rfl : entry = own := by simpa using own_
        exact onward count retained before rfl rfl (counted.congr (by simp))
/-! ### The place of the target -/

theorem localPath_meets (above parts : List String) (before start : Workspace) (same : Disturbs before start)
    (may : ∀ path now, Disturbs before now → needs (.makeParent path) now) :
    (localPath above parts).run.Meets execute Disturbs needs (fun _ now => Disturbs before now) start := by
  have stable : ∀ a b, Disturbs before a → ReflTransGen Disturbs a b → Disturbs before b :=
    fun _ _ here steps => here.trans (.all steps)
  have failed : ∀ (error : Failure) now, Disturbs before now → Disturbs before now := fun _ _ here => here
  induction parts generalizing above start with
  | nil => exact fun now steps => same.trans (.all steps)
  | cons part rest ih =>
    unfold localPath
    refine .afterQuery_kept stable same failed fun seen node here found => ?_
    cases node with
    | some node => exact .afterSettle_kept stable here failed fun _ _ => ih _ seen here
    | none =>
      dsimp only
      split
      · refine .afterSubmit_kept stable here failed (may _) fun now _ after there made => ?_
        simp only [execute,bind_ok,pure_ok] at made
        obtain ⟨_,_,_,_,done⟩ := made
        cases done
        exact ih _ _ ⟨there.uploads,there.finished,there.replaced⟩
      · exact ih _ seen here
end

/-! ### What the operations of a call find -/

def Command.request : Command → UploadRequest
  | .stage _ request _ | .commit _ request | .finish _ request => request

def Command.id (command : Command) : String := command.request.uploadId

/-- The transfers that the call removes because they are abandoned. -/
def Command.expired : Command → List String
  | .stage around _ _ => around.abandoned
  | _ => []

/-- The call stages a transfer that is not finished. -/
def Command.Stages (command : Command) (w : Workspace) : Prop :=
  (∃ around request input, command = .stage around request input) ∧ w.finished.find command.id = none

/-- The call commits a transfer that is staged and not finished. -/
def Command.Commits (command : Command) (w : Workspace) : Prop :=
  (∃ around request, command = .commit around request) ∧ w.finished.find command.id = none ∧
    manifestOf command.id w = some command.request

/-- The call gives the transfer its receipt. -/
def Command.Finishes (command : Command) (w : Workspace) : Prop :=
  w.finished.find command.id = none ∧
    ((∃ around request, command = .finish around request) ∨ command.Commits w)

/-- The call removes the staging of a transfer that is abandoned or finished. -/
def Command.Removes (command : Command) (id : String) (w : Workspace) : Prop :=
  (command.Stages w ∧ id ∈ command.expired) ∨ (id = command.id ∧ w.finished.find command.id = some command.request)

/-- The transfer is not finished, and the others leave it so much room. -/
def Reserved (request : UploadRequest) (count retained : Nat) (w : Workspace) : Prop :=
  w.finished.find request.uploadId = none ∧ Counted [request.uploadId] count retained w

theorem Reserved.disturb {request : UploadRequest} {count : Nat}
    (reserved : Reserved request count retained a) (steps : ReflTransGen Disturbs a b) :
    Reserved request count retained b := by
  have disturbs := Disturbs.all steps
  exact ⟨disturbs.finished ▸ reserved.1,reserved.2.disturb disturbs⟩

theorem Reserved.made {request : UploadRequest} {count : Nat}
    (reserved : Reserved request count retained a)
    (executed : execute (.makeStaging request.uploadId) a = .ok ((),b)) : Reserved request count retained b := by
  obtain ⟨free,directories,bytes⟩ := reserved
  cases executed
  have same : others [request.uploadId] (a.uploads.insert ⟨request.uploadId,none,none⟩) =
      others [request.uploadId] a.uploads := Table.delete_insert _ _ _ (by simp)
  exact ⟨free,same ▸ directories,same ▸ bytes⟩

theorem execute_manifest {request : UploadRequest}
    (executed : execute (.writeManifest request) a = .ok ((),b)) :
    b = { a with
      uploads := a.uploads.update (fun row => row.uploadId = request.uploadId)
        (fun row => { row with manifest := some request }) fun _ => rfl } ∧
      manifestOf request.uploadId b = some request := by
  simp only [execute,bind_ok,ensure_ok,pure_ok] at executed
  obtain ⟨_,present,done⟩ := executed
  cases done
  refine ⟨rfl,?_⟩
  obtain ⟨row,found⟩ := Option.isSome_iff_exists.mp (Table.find_isSome.mpr present)
  have same : row.uploadId = request.uploadId := (Table.find_eq_some.mp found).2
  simp [manifestOf,Table.find_update,found,same]

theorem Reserved.manifest {request : UploadRequest} {count : Nat}
    (reserved : Reserved request count retained a)
    (executed : execute (.writeManifest request) a = .ok ((),b)) :
    Reserved request count retained b ∧ manifestOf request.uploadId b = some request := by
  obtain ⟨free,directories,bytes⟩ := reserved
  obtain ⟨rfl,manifest⟩ := execute_manifest executed
  refine ⟨⟨free,?_⟩,manifest⟩
  have same := others_update request.uploadId (fun row => { row with manifest := some request }) (fun _ => rfl) a.uploads
  exact ⟨same ▸ directories,same ▸ bytes⟩

theorem execute_payload {id : String} {content : Bytes}
    (executed : execute (.writePayload id content) a = .ok ((),b)) :
    b = { a with
      uploads := a.uploads.update (fun row => row.uploadId = id)
        (fun row => { row with payload := some content }) fun _ => rfl } ∧ manifestOf id b = manifestOf id a := by
  simp only [execute,bind_ok,ensure_ok,pure_ok] at executed
  obtain ⟨_,_,done⟩ := executed
  cases done
  refine ⟨rfl,?_⟩
  rw [manifestOf,manifestOf,Table.find_update]
  cases a.uploads.find id with
  | none => rfl
  | some row => simp only [Option.map_some,Option.bind_some]; split <;> rfl

/-- What the replacement of the target has done, when it succeeded and when not. -/
def Replaced (request : UploadRequest) (before : Workspace) (outcome : Except Failure Unit) (now : Workspace) : Prop :=
  now.uploads = before.uploads ∧ now.finished = before.finished ∧
    (outcome = .ok () → ∃ content, now.replaced = (request,content) :: before.replaced)

theorem Disturbs.failed {before now : Workspace} (same : Disturbs before now) (request : UploadRequest)
    (error : Failure) : Replaced request before (.error error) now :=
  ⟨same.uploads,same.finished,nofun⟩

theorem Replaced.disturb {request : UploadRequest} {before : Workspace} {outcome : Except Failure Unit}
    (replaced : Replaced request before outcome a) (steps : ReflTransGen Disturbs a b) :
    Replaced request before outcome b := by
  have disturbs := Disturbs.all steps
  exact ⟨disturbs.uploads.trans replaced.1,disturbs.finished.trans replaced.2.1,disturbs.replaced ▸ replaced.2.2⟩

section
variable [Hash]

/-- What each operation of a call finds, where the call began in `before`. -/
def Allowed (command : Command) (before : Workspace) : Operation → Workspace → Prop
  | .openLock, _ | .makeReceipts, _ | .makeUploads, _ | .syncParent, _ => True
  | .makeParent _, w => command.Commits w
  | .writeReceipt request, w => request = command.request ∧ command.Finishes w
  | .removePart id _, w | .removeStaging id, w => command.Removes id w
  | .makeStaging id, w => command.Stages w ∧ id = command.id ∧ (others [id] w.uploads).rows.length < maxStagedUploads
  | .writeManifest request, w => command.Stages w ∧ request = command.request ∧
      ∀ manifest ∈ manifestOf request.uploadId w, manifest = request
  | .writePayload id content, w => command.Stages w ∧ id = command.id ∧ manifestOf id w = some command.request ∧
      stagedBytes (others [id] w.uploads).rows + content.length ≤ maxStagedBytes
  | .replaceTarget request content, w => command.Commits w ∧ request = command.request ∧
      verify request content = .ok () ∧ w.replaced = before.replaced

/-- What a call that succeeded has done. -/
def Achieved (command : Command) (before : Workspace) (outcome : Except Failure Receipt) (now : Workspace) : Prop :=
  match outcome with
  | .error _ => True
  | .ok _ =>
    match command with
    | .stage _ request _ =>
      now.finished.find request.uploadId = some request ∨
        (now.finished.find request.uploadId = none ∧ manifestOf request.uploadId now = some request)
    | .commit _ request => ∃ content, now.replaced = (request,content) :: before.replaced
    | .finish _ request => now.finished.find request.uploadId = some request

section
variable (around : Surroundings) (request : UploadRequest)
include around request

theorem stageFresh_meets (input content : Bytes)
    (before start : Workspace) (fits : content.length = request.bytes)
    (free : start.finished.find request.uploadId = none) :
    (stageFresh around request content).run.Meets execute Disturbs
      (Allowed (.stage around request input) before)
      (OnSuccess fun _ now => now.finished.find request.uploadId = none ∧
        manifestOf request.uploadId now = some request) start := by
  let command : Command := .stage around request input
  refine .afterSubmit (fun _ _ => trivial) (fun _ _ => trivial) fun here _ after steps executed => ?_
  obtain rfl : after = here := execute_idle rfl executed
  have unfinished : after.finished.find request.uploadId = none := (Disturbs.all steps).finished ▸ free
  refine .afterQuery (fun _ _ => trivial) fun listed entries steps found => ?_
  cases found
  have unlisted : listed.finished.find request.uploadId = none := (Disturbs.all steps).finished ▸ unfinished
  have counted : Counted (request.uploadId :: listed.uploads.rows.map Staged.uploadId) 0 0 listed := by
    have none : (others (request.uploadId :: listed.uploads.rows.map Staged.uploadId) listed.uploads).rows = [] := by
      rw [others_cons]
      show List.filter _ (others _ listed.uploads).rows = []
      rw [others_all]
      rfl
    exact ⟨by simp [none],by simp [none,stagedBytes]⟩
  have scanned := @scan_meets (Allowed command before) around request.uploadId _ 0 0 listed counted
    fun id member now same =>
      have stages : command.Stages now := ⟨⟨around,request,input,rfl⟩,same ▸ unlisted⟩
      ⟨fun _ => .inl ⟨stages,member⟩,.inl ⟨stages,member⟩⟩
  refine .andThen scanned (fun _ _ => trivial) fun counts now holds => ?_
  obtain ⟨finished,_,counted⟩ := holds
  refine .afterSettle (fun _ _ => trivial) fun _ room => ?_
  simp only [ensure_ok,not_or,ge_iff_le,gt_iff_lt,Nat.not_le,Nat.not_lt] at room
  have reserved : Reserved request counts.1 counts.2 now := ⟨finished ▸ unlisted,counted⟩
  have stages : ∀ w, Reserved request counts.1 counts.2 w → command.Stages w :=
    fun w holds => ⟨⟨around,request,input,rfl⟩,holds.1⟩
  refine .afterSubmit (fun _ _ => trivial) (fun now steps => ?_) fun here _ made steps executed => ?_
  · have holds := reserved.disturb steps
    exact ⟨stages now holds,rfl,Nat.lt_of_le_of_lt holds.2.directories room.1⟩
  have reserved := (reserved.disturb steps).made executed
  refine .afterQuery (fun _ _ => trivial) fun checked _ steps found => ?_
  have reserved := reserved.disturb steps
  have own : ∀ manifest ∈ manifestOf request.uploadId checked, manifest = request := ensure_ok.mp found
  refine .afterSubmit (fun _ _ => trivial) (fun now steps => ?_) fun here _ written steps executed => ?_
  · refine ⟨stages now (reserved.disturb steps),rfl,?_⟩
    rw [(Disturbs.all steps).manifestOf]
    exact own
  obtain ⟨reserved,manifest⟩ := (reserved.disturb steps).manifest executed
  refine .afterSubmit (fun _ _ => trivial) (fun _ _ => trivial) fun here _ last steps executed => ?_
  obtain rfl : last = here := execute_idle rfl executed
  have reserved := reserved.disturb steps
  have manifest : manifestOf request.uploadId last = some request := ((Disturbs.all steps).manifestOf _).trans manifest
  refine .afterSubmit (fun _ _ => trivial) (fun now steps => ?_) fun here _ stored steps executed => ?_
  · have holds := reserved.disturb steps
    have bytes := holds.2.bytes
    refine ⟨stages now holds,rfl,((Disturbs.all steps).manifestOf _).trans manifest,?_⟩
    omega
  obtain ⟨rfl,same⟩ := execute_payload executed
  have free := (reserved.disturb steps).1
  have manifest := same.trans (((Disturbs.all steps).manifestOf _).trans manifest)
  refine .afterSubmit (fun _ _ => trivial) (fun _ _ => trivial) fun here _ flushed steps executed => ?_
  obtain rfl : flushed = here := execute_idle rfl executed
  intro now more
  have disturbs := Disturbs.all (steps.trans more)
  exact ⟨disturbs.finished ▸ free,(disturbs.manifestOf _).trans manifest⟩

theorem stage_meets (input : Bytes) (before : Workspace) :
    (stage around request input).run.Meets execute Disturbs (Allowed (.stage around request input) before)
      (OnSuccess fun _ now => now.finished.find request.uploadId = some request ∨
        (now.finished.find request.uploadId = none ∧ manifestOf request.uploadId now = some request)) before := by
  refine .afterSettle (fun _ _ => trivial) fun _ valid => ?_
  refine .afterSettle (fun _ _ => trivial) fun content _ => ?_
  refine .afterSettle (fun _ _ => trivial) fun _ verified => ?_
  have fits : content.length = request.bytes := by
    rw [verify,ensure_ok,not_or,not_ne_iff] at verified
    exact verified.1
  refine .afterSubmit (fun _ _ => trivial) (fun _ _ => trivial) fun opened _ after _ executed => ?_
  obtain rfl : after = opened := execute_idle rfl executed
  refine .afterQuery (fun _ _ => trivial) fun seen done _ found => ?_
  cases done with
  | true =>
    have receipt := finished_true found
    refine (finishLocked_meets around request seen (fun _ => ⟨trivial,trivial⟩) ?_ ?_).mono fun outcome now ended => ?_
    · intro now disturbs free
      rw [disturbs.finished,receipt] at free
      exact nomatch free
    · intro now here
      exact ⟨fun _ => .inr ⟨rfl,here⟩,.inr ⟨rfl,here⟩⟩
    · cases outcome with
      | ok receipt => exact .inl (ended.2 receipt rfl)
      | error => exact trivial
  | false =>
    refine (stageFresh_meets around request input content before seen fits (finished_false found)).mono
      fun outcome now staged => ?_
    cases outcome with
    | ok receipt => exact .inr staged
    | error => exact trivial

theorem replace_meets (before start : Workspace)
    (same : Disturbs before start) (commits : (Command.commit around request).Commits before) :
    (replace request).run.Meets execute Disturbs (Allowed (.commit around request) before)
      (Replaced request before) start := by
  have still : ∀ now, Disturbs before now → (Command.commit around request).Commits now := by
    intro now disturbs
    obtain ⟨_,free,manifest⟩ := commits
    exact ⟨⟨around,request,rfl⟩,disturbs.finished ▸ free,(disturbs.manifestOf _).trans manifest⟩
  have stable : ∀ a b, Disturbs before a → ReflTransGen Disturbs a b → Disturbs before b :=
    fun _ _ here steps => here.trans (.all steps)
  have failed : ∀ error now, Disturbs before now → Replaced request before (.error error) now :=
    fun error _ here => here.failed request error
  refine .afterQuery_kept stable same failed fun seen content here _ => ?_
  refine .afterSettle_kept stable here failed fun _ verified => ?_
  refine .afterSettle_kept stable here failed fun _ _ => ?_
  rw [ExceptT.run_bind]
  refine (localPath_meets [] (segments request.path) before seen here fun _ => still).bind fun outcome placed there => ?_
  cases outcome with
  | error error => exact fun now steps => failed error now (stable _ _ there steps)
  | ok =>
    refine .afterSubmit_kept stable there failed
      (fun now disturbs => ⟨still now disturbs,rfl,verified,disturbs.replaced⟩) fun now _ after disturbs executed => ?_
    have replaced : Replaced request before (.ok ()) after := by
      simp only [execute,bind_ok,pure_ok] at executed
      obtain ⟨_,_,_,_,done⟩ := executed
      cases done
      exact ⟨disturbs.uploads,disturbs.finished,fun _ => ⟨content,by rw [← disturbs.replaced]⟩⟩
    intro last steps
    refine ⟨trivial,fun _ flushed executed now more => ?_,fun error now more => ?_⟩
    · obtain rfl : flushed = last := execute_idle rfl executed
      exact replaced.disturb (steps.trans more)
    · have kept := replaced.disturb (steps.trans more)
      exact ⟨kept.1,kept.2.1,by simp⟩

theorem commit_meets (before : Workspace) :
    (commit around request).run.Meets execute Disturbs (Allowed (.commit around request) before)
      (OnSuccess fun _ now => ∃ content, now.replaced = (request,content) :: before.replaced) before := by
  have stable : ∀ a b, Disturbs before a → ReflTransGen Disturbs a b → Disturbs before b :=
    fun _ _ here steps => here.trans (.all steps)
  refine .afterSettle (fun _ _ => trivial) fun _ valid => ?_
  refine .afterSubmit_kept stable (.refl before) (fun _ _ _ => trivial) (fun _ _ => trivial)
    fun opened _ after here executed => ?_
  obtain rfl : after = opened := execute_idle rfl executed
  refine .afterQuery_kept stable here (fun _ _ _ => trivial) fun seen done there found => ?_
  cases done with
  | true => exact fun _ _ => trivial
  | false =>
    have free := finished_false found
    refine .afterQuery_kept stable there (fun _ _ _ => trivial) fun staged _ same known => ?_
    simp only [bind_ok,require_ok,ensure_ok] at known
    obtain ⟨other,manifest,alike⟩ := known
    rw [alike] at manifest
    have commits : (Command.commit around request).Commits before :=
      ⟨⟨around,request,rfl⟩,there.finished ▸ free,(same.manifestOf _).symm.trans manifest⟩
    refine .afterAttempt (replace_meets around request before staged same commits) fun result now replaced => ?_
    have ended := @finishLocked_meets (Allowed (.commit around request) before) around request now
      (fun _ => ⟨trivial,trivial⟩) ?_ fun now here => ⟨fun _ => .inr ⟨rfl,here⟩,.inr ⟨rfl,here⟩⟩
    · refine .afterAttempt ended fun outcome last kept => ?_
      intro final steps
      cases result with
      | error => exact trivial
      | ok =>
        obtain ⟨content,here⟩ := replaced.2.2 rfl
        exact ⟨content,(Disturbs.all steps).replaced.trans (kept.1.trans here)⟩
    · intro last disturbs unfinished
      refine ⟨rfl,unfinished,.inr ⟨⟨around,request,rfl⟩,unfinished,?_⟩⟩
      obtain ⟨_,_,staged⟩ := commits
      rw [disturbs.manifestOf,manifestOf,replaced.1]
      exact staged

theorem finish_meets (before : Workspace) :
    (finish around request).run.Meets execute Disturbs (Allowed (.finish around request) before)
      (OnSuccess fun _ now => now.finished.find request.uploadId = some request) before := by
  refine .afterSettle (fun _ _ => trivial) fun _ valid => ?_
  refine .afterSubmit (fun _ _ => trivial) (fun _ _ => trivial) fun opened _ after _ executed => ?_
  obtain rfl : after = opened := execute_idle rfl executed
  refine (finishLocked_meets around request after (fun _ => ⟨trivial,trivial⟩) ?_ ?_).mono fun outcome now ended => ?_
  · exact fun now _ free => ⟨rfl,free,.inl ⟨around,request,rfl⟩⟩
  · exact fun now here => ⟨fun _ => .inr ⟨rfl,here⟩,.inr ⟨rfl,here⟩⟩
  · cases outcome with
    | ok receipt => exact ended.2 receipt rfl
    | error => exact trivial
end

/-- Every operation of a call finds what it needs, and a reply says what the call has done. -/
theorem code_meets (command : Command) (before : Workspace) :
    (code command).Meets execute Disturbs (Allowed command before) (Achieved command before) before := by
  have replied : ∀ {α : Type} (call : Program α) (receipt : α → Receipt) (post : Workspace → Prop),
      call.run.Meets execute Disturbs (Allowed command before) (OnSuccess fun _ now => post now) before →
        (call >>= fun value => (pure (receipt value) : Program Receipt)).run.Meets execute Disturbs
          (Allowed command before) (OnSuccess fun _ now => post now) before := by
    intro α call receipt post first
    rw [ExceptT.run_bind]
    refine first.always.bind fun outcome now holds => ?_
    cases outcome with
    | ok value => exact holds
    | error => exact fun _ _ => trivial
  have known : ∀ (post : Workspace → Prop) (outcome : Except Failure Receipt) (now : Workspace),
      (∀ receipt, Achieved command before (.ok receipt) now = post now) → OnSuccess (fun _ now => post now) outcome now →
        Achieved command before outcome now := by
    intro post outcome now same holds
    cases outcome with
    | ok receipt => exact (same receipt) ▸ holds
    | error => exact trivial
  cases command with
  | stage around request input =>
    exact (replied _ _ _ (stage_meets around request input before)).mono fun outcome now => known _ outcome now fun _ => rfl
  | commit around request =>
    exact (replied _ _ _ (commit_meets around request before)).mono fun outcome now => known _ outcome now fun _ => rfl
  | finish around request =>
    exact (replied _ _ _ (finish_meets around request before)).mono fun outcome now => known _ outcome now fun _ => rfl
end

end Proofstorm.Upload
