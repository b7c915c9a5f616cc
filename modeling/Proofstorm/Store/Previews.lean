import Proofstorm.Store.Exclusion

/-!
What a creation plan and a request id are bound to. Their rows are only ever
added (`Bound`), so a plan is admitted to one instance id and a request to one
preview, whatever is purged since. Once the cell of an admission is gone its plan
is refused: only a reservation opens a cell, and it opens it under an id that it
draws (`drawn`).
-/
namespace Proofstorm.Store
open Proofstorm.Core
open Proofstorm.Interleaving (Throughout Linked Call query_bind settle_bind submit_bind proceed_ok proceed_error)
open Proofstorm.Interleaving.Call (Meets)
open Relation (ReflTransGen)

/-- Admissions and submissions are still there. -/
structure Bound (db after : Db) : Prop where
  admissions : ∀ row ∈ db.previewAdmissions, row ∈ after.previewAdmissions
  submissions : ∀ row ∈ db.cellSubmissionRequests, row ∈ after.cellSubmissionRequests

theorem Bound.refl (db : Db) : Bound db db := ⟨fun _ member => member,fun _ member => member⟩

theorem Bound.trans {db middle after : Db} (first : Bound db middle) (second : Bound middle after) : Bound db after :=
  ⟨fun row member => second.admissions row (first.admissions row member),
    fun row member => second.submissions row (first.submissions row member)⟩

theorem Bound.many {db after : Db} (steps : ReflTransGen Bound db after) : Bound db after := by
  induction steps with
  | refl => exact .refl db
  | tail _ last ih => exact ih.trans last

/-- An open cell of the workspace with that id. -/
def Standing (workspace id : String) (db : Db) : Prop :=
  ∃ row ∈ db.cellHandles, row.workspaceId = workspace ∧ row.instanceId = id ∧ row.phase = .opened

instance (workspace id : String) (db : Db) : Decidable (Standing workspace id db) :=
  inferInstanceAs (Decidable (∃ row ∈ db.cellHandles.rows, row.workspaceId = workspace ∧ row.instanceId = id ∧
    row.phase = .opened))

/-- The id of the cell that a name stands for since the event, if the event opened it. -/
def opens (workspace name : String) (event : Event) : Option String :=
  if readHandle workspace name event.after = readHandle workspace name event.before then none
  else (readHandle workspace name event.after).map CellHandle.instanceId

/-- The instance id that an event drew, if it reserved a name. -/
def drawn (event : Event) : Option String :=
  match event.did with
  | some (.reserveCell workspace _ name _ _) => opens workspace name event
  | some (.reservePreview workspace _ preview _) => opens workspace preview.name event
  | _ => none

/-- No two reservations drew one id: it is a digest of a random nonce. -/
def FreshIds (log : List Event) : Prop := (log.filterMap drawn).Nodup

instance (log : List Event) : Decidable (FreshIds log) := by
  unfold FreshIds
  infer_instance

section
variable [CoreFunctions] {known : PublishedRevision → Prop} {statement : Statement} {db after : Db}
  {workspace principal nonce id : String} {preview : CellPreview}

theorem Write.bound (write : Write statement db after) : Bound db after := by
  cases write with
  | elsewhere statement db _ _ _ _ _ _ _ _ _ _ _ _ _ bound _ _ => exact ⟨fun _ member => member,bound⟩
  | newAction a operation cell db after admitted =>
    rw [admitted.result]
    exact ⟨fun _ member => member,fun _ member => member⟩
  | acknowledge _ _ _ _ _ _ _ db after acknowledged =>
    rw [(recordUpdateReceipt_ok.mp acknowledged.result).2]
    exact ⟨fun _ member => member,fun _ member => member⟩
  | accept _ _ _ _ _ _ _ db after accepted =>
    rw [accepted.after_eq]
    exact ⟨fun _ member => member,fun _ member => member⟩
  | reserve statement row db admissions reserved drawn =>
    refine ⟨fun old member => ?_,fun _ member => member⟩
    cases statement with
    | reserveCell =>
      obtain ⟨_,_,_,_,rfl⟩ := drawn
      exact member
    | reservePreview =>
      obtain ⟨_,_,_,_,_,rfl⟩ := drawn
      exact Table.mem_insert_of_mem member
    | _ => exact drawn.elim
  | _ => exact ⟨fun _ member => member,fun _ member => member⟩

/-! ### What `reserve_preview` answers -/

/-- A reservation that succeeds leaves its admission, to an open cell. -/
theorem reservePreviewTx_admits {handle : CellHandle}
    (reserved : reservePreviewTx workspace principal preview nonce db = .ok (handle,after)) :
    (⟨workspace,principal,preview.id,handle.instanceId⟩ : AdmissionRow) ∈ after.previewAdmissions := by
  cases admitted : db.previewAdmissions.find (workspace,principal,preview.id) with
  | some previous =>
    simp only [reservePreviewTx,admitted,bind_ok,require_ok,pure_ok,Prod.mk.injEq] at reserved
    obtain ⟨_,current,rfl,rfl⟩ := reserved
    obtain ⟨_,same⟩ := Option.filter_eq_some_iff.mp current
    obtain ⟨member,keyed⟩ := Table.find_eq_some.mp admitted
    obtain ⟨ws,p,plan,instance_⟩ := previous
    simp only [key,Prod.mk.injEq] at keyed
    obtain ⟨rfl,rfl,rfl⟩ := keyed
    obtain ⟨rfl,_⟩ := of_decide_eq_true same
    exact member
  | none =>
    rcases reservePreviewTx_ok reserved with ⟨_,taken⟩ | ⟨row,_,_,_,_,_,_,free,rfl,rfl⟩
    · simp only [reservePreviewTx,admitted,bind_ok,ensure_ok] at reserved
      obtain ⟨_,absent,_⟩ := reserved
      exact absurd (.inl (by simp [taken])) absent
    · exact Table.mem_insert.mpr (.inr ⟨rfl,free⟩)

/-- A plan whose cell is gone is refused. -/
theorem reservePreviewTx_gone (nonce : String) (admitted : (⟨workspace,principal,preview.id,id⟩ : AdmissionRow) ∈ db.previewAdmissions)
    (gone : ¬ Standing workspace id db) : ∃ error, reservePreviewTx workspace principal preview nonce db = .error error := by
  cases reserved : reservePreviewTx workspace principal preview nonce db with
  | error error => exact ⟨error,rfl⟩
  | ok outcome =>
    have found : db.previewAdmissions.find (workspace,principal,preview.id) = some ⟨workspace,principal,preview.id,id⟩ :=
      Table.find_of_mem admitted
    simp only [reservePreviewTx,found,bind_ok,require_ok,pure_ok] at reserved
    obtain ⟨_,current,_⟩ := reserved
    obtain ⟨read,same⟩ := Option.filter_eq_some_iff.mp current
    obtain ⟨row,member,home,_,rfl⟩ := readHandle_eq_some.mp read
    obtain ⟨there,opened⟩ := of_decide_eq_true same
    exact absurd ⟨row,member,home,there,opened⟩ gone

/-- Where nothing else happens, the call fails and leaves the database as it was. -/
theorem reservePreview_gone (nonce : String) (admitted : (⟨workspace,principal,preview.id,id⟩ : AdmissionRow) ∈ db.previewAdmissions)
    (gone : ¬ Standing workspace id db) :
    ∃ error, (reservePreview workspace principal preview nonce).run.run execute db = (.error error,db) := by
  obtain ⟨stale,refused⟩ := reservePreviewTx_gone nonce admitted gone
  simp only [reservePreview,cellPreview,bind_assoc,query_bind,settle_bind,Call.run]
  cases authorize workspace principal .cellCreate db <;> simp only [proceed_error,proceed_ok,Call.run]
  · exact ⟨_,rfl⟩
  cases authorize workspace principal .cellStatus db <;> simp only [proceed_error,proceed_ok,Call.run]
  · exact ⟨_,rfl⟩
  cases ensure (isSlug preview.name ∧ preview.update = none)
      (StoreError.validation "creation requires a new lowercase kebab-case cell name") <;>
    simp only [proceed_error,proceed_ok,Call.run]
  · exact ⟨_,rfl⟩
  cases authorize workspace principal .cellRead db <;> simp only [proceed_error,proceed_ok,Call.run]
  · exact ⟨_,rfl⟩
  cases ensure ((db.cellPreviews.find (workspace,principal,preview.id)).map PreviewRow.preview = some preview)
      (StoreError.validation "preview does not match its immutable record") <;>
    simp only [proceed_error,proceed_ok,Interleaving.run_submit,Call.run]
  · exact ⟨_,rfl⟩
  simp only [execute,refused]
  exact ⟨_,rfl⟩

/-! ### What a call leaves -/

/-- What a reply of the call promises. -/
def Promised (request : Request) (reply : Except StoreError Reply) (db : Db) : Prop :=
  match request,reply with
  | .reservePreview workspace principal preview _,.ok (.handle handle) =>
    (⟨workspace,principal,preview.id,handle.instanceId⟩ : AdmissionRow) ∈ db.previewAdmissions
  | .bindCellSubmission workspace principal requestId preview,.ok _ =>
    (⟨workspace,principal,requestId,preview.id,digestJson (.preview preview)⟩ : SubmissionRow) ∈ db.cellSubmissionRequests
  | _,_ => True

theorem reservePreview_meets : (code (.reservePreview workspace principal preview nonce)).Meets execute Bound
    (fun _ _ => True) (Promised (.reservePreview workspace principal preview nonce)) db := by
  simp only [code,program,reservePreview,cellPreview,bind_assoc,query_bind,settle_bind,submit_bind]
  intro _ _
  refine Meets.proceed (fun _ _ => trivial) fun _ _ => ?_
  intro _ _
  refine Meets.proceed (fun _ _ => trivial) fun _ _ => ?_
  refine Meets.proceed (fun _ _ => trivial) fun _ _ => ?_
  intro _ _
  refine Meets.proceed (fun _ _ => trivial) fun _ _ => ?_
  intro _ _
  refine Meets.proceed (fun _ _ => trivial) fun _ _ => ?_
  refine Meets.proceed (fun _ _ => trivial) fun _ _ => ?_
  intro now _
  refine ⟨trivial,fun handle after executed => ?_,fun error => Meets.proceed (fun _ _ => trivial) fun _ none_ => by cases none_⟩
  exact fun last later => (Bound.many later).admissions _ (reservePreviewTx_admits executed)

theorem bindCellSubmission_meets {requestId : String} : (code (.bindCellSubmission workspace principal requestId preview)).Meets
    execute Bound (fun _ _ => True) (Promised (.bindCellSubmission workspace principal requestId preview)) db := by
  simp only [code,program,bindCellSubmission,bind_assoc,query_bind,settle_bind,submit_bind]
  intro _ _
  refine Meets.proceed (fun _ _ => trivial) fun _ _ => ?_
  intro _ _
  refine ⟨trivial,fun _ after executed => ?_,fun error => Meets.proceed (fun _ _ => trivial) fun _ none_ => by cases none_⟩
  refine Meets.proceed (fun _ _ => trivial) fun _ _ => ?_
  intro seen _
  refine Meets.proceed (fun _ _ => trivial) fun stored read => ?_
  refine Meets.proceed (fun _ _ => trivial) fun _ same => ?_
  obtain ⟨member,keyed⟩ := Table.find_eq_some.mp (require_ok.mp read)
  obtain ⟨ws,p,request,plan,digest⟩ := stored
  simp only [key,Prod.mk.injEq] at keyed
  obtain ⟨rfl,rfl,rfl⟩ := keyed
  obtain ⟨rfl,rfl⟩ := ensure_ok.mp same
  exact fun last later => (Bound.many later).submissions _ member

/-! ### Runs of the store -/

variable {config : Config} {event : Event}

theorem Reached.bound (reached : Reached config) :
    Throughout (fun _ event => Bound event.before event.after) config.log := by
  refine ((reached.warranted _ reached.vetted).2.and reached.committed).mono ?_
  rintro _ event ⟨⟨_,writes⟩,committed⟩
  cases did : event.did with
  | none =>
    rw [Interleaving.Committed,did] at committed
    rw [committed]
    exact .refl _
  | some statement => exact (writes statement did).2.2.bound

/-- What a call promised holds for good. -/
theorem Reached.promised (reached : Reached config) {event : Event} (member : event ∈ config.log)
    {reply : Except StoreError Reply} (replied : event.reply = some reply) : Promised event.request reply config.state := by
  have starts : ∀ request db, True → (code request).Meets execute Bound (fun _ _ => True) (Promised request) db := by
    intro request db _
    cases request with
    | reservePreview => exact reservePreview_meets
    | bindCellSubmission => exact bindCellSubmission_meets
    | _ => exact (Meets.trivial _ db).mono fun _ _ _ => trivial
  obtain ⟨_,events⟩ := Interleaving.Reachable.scoped (fun _ => True) Bound (fun _ _ _ => True) Promised reached trivial
    (Interleaving.throughout_iff.mpr fun _ _ _ _ => trivial) starts
  obtain ⟨newer,older,log⟩ := List.append_of_mem member
  have each := reached.bound.all
  have linked := reached.linked
  rw [log] at each linked
  obtain ⟨_,ended⟩ := Interleaving.throughout_iff.mp events newer event older log fun seen before =>
    each seen (List.mem_append_right _ (List.mem_cons_of_mem _ (List.mem_of_mem_take before)))
  have promised := ended reply replied
  have later := Bound.many (linked.across (R := Bound) fun seen after => each seen (List.mem_append_left _ after))
  unfold Promised at promised ⊢
  split at promised
  · exact later.admissions _ promised
  · exact later.submissions _ promised
  · trivial

/-- A reservation draws the id of the cell that it opens. -/
theorem drawn_reserved (event : Event) {row : CellHandleRow} {admissions : Table AdmissionRow}
    (did : event.did = some statement) (reserved : Reserved row event.before)
    (drawing : Reserves statement row event.before admissions)
    (written : readHandle row.workspaceId row.name event.after = some row.toHandle) : drawn event = some row.instanceId := by
  have other : readHandle row.workspaceId row.name event.after ≠ readHandle row.workspaceId row.name event.before := by
    intro same
    rw [written] at same
    rcases reserved.taken with ⟨free,_⟩ | ⟨before,read,_,shut,_⟩
    · rw [free] at same
      cases same
    · rw [read] at same
      cases same
      have opened : row.phase = .opened := reserved.opened
      exact absurd (opened.symm.trans shut) (by simp)
  have opened : opens row.workspaceId row.name event = some row.instanceId := by
    rw [opens,if_neg other,written]
    rfl
  unfold drawn
  rw [did]
  cases statement with
  | reserveCell =>
    obtain ⟨there,same,_⟩ := drawing
    rw [there,same] at opened
    exact opened
  | reservePreview =>
    obtain ⟨there,same,_⟩ := drawing
    rw [there,same] at opened
    exact opened
  | _ => exact drawing.elim

/-- A cell that stands after an event stood before it, or the event drew its id. -/
theorem standing_or_drawn (did : event.did = some statement) (warranted : Warranted known statement)
    (write : Write statement event.before event.after) (standing : Standing workspace id event.after) :
    Standing workspace id event.before ∨ drawn event = some id := by
  obtain ⟨request,since,did_,db,after,reply⟩ := event
  simp only at did write standing
  obtain ⟨row,member,home,named,opened⟩ := standing
  cases write with
  | reserve statement new db admissions reserved drawing =>
    rcases mem_writeHandle.mp member with rfl | ⟨old,_⟩
    · rw [← named]
      exact .inr (drawn_reserved _ did reserved drawing (readHandle_writeHandle row db))
    · exact .inl ⟨row,old,home,named,opened⟩
  | setPhase ws p handle phase _ db =>
    rcases (Table.mem_update (by exact fun _ => rfl)).mp member with ⟨old,_⟩ | ⟨old,_,_,rfl⟩
    · exact .inl ⟨row,old,home,named,opened⟩
    · exact absurd opened warranted
  | newAction a operation cell db after admitted =>
    rw [admitted.result] at member
    exact .inl ⟨row,member,home,named,opened⟩
  | acknowledge _ _ _ _ _ _ _ db after acknowledged =>
    rw [(recordUpdateReceipt_ok.mp acknowledged.result).2] at member
    exact .inl ⟨row,member,home,named,opened⟩
  | accept _ _ _ _ _ _ _ db after accepted =>
    rw [accepted.after_eq] at member
    rcases (Table.mem_update (by exact fun _ => rfl)).mp member with ⟨old,_⟩ | ⟨old,there,_,rfl⟩
    · exact .inl ⟨row,old,home,named,opened⟩
    · exact .inl ⟨old,there,home,named,opened⟩
  | purgeHandle => exact .inl ⟨row,(Table.mem_delete.mp member).1,home,named,opened⟩
  | purge => exact .inl ⟨row,(Table.mem_delete.mp member).1,home,named,opened⟩
  | _ => exact .inl ⟨row,member,home,named,opened⟩

/-- The event that leaves an admission that was not there drew its id. -/
theorem admitted_or_drawn (did : event.did = some statement)
    (write : Write statement event.before event.after) {row : AdmissionRow} (member : row ∈ event.after.previewAdmissions) :
    row ∈ event.before.previewAdmissions ∨ drawn event = some row.instanceId := by
  obtain ⟨request,since,did_,db,after,reply⟩ := event
  simp only at did write member
  cases write with
  | reserve statement new db admissions reserved drawing =>
    have drew := drawn_reserved ⟨request,since,did_,db,{ writeHandle new db with previewAdmissions := admissions },reply⟩ did reserved drawing (readHandle_writeHandle new db)
    cases statement with
    | reserveCell =>
      obtain ⟨_,_,_,_,rfl⟩ := drawing
      exact .inl member
    | reservePreview =>
      obtain ⟨_,_,_,_,_,rfl⟩ := drawing
      rcases Table.mem_insert.mp member with old | ⟨rfl,_⟩
      · exact .inl old
      · exact .inr drew
    | _ => exact drawing.elim
  | newAction a operation cell db after admitted =>
    rw [admitted.result] at member
    exact .inl member
  | acknowledge _ _ _ _ _ _ _ db after acknowledged =>
    rw [(recordUpdateReceipt_ok.mp acknowledged.result).2] at member
    exact .inl member
  | accept _ _ _ _ _ _ _ db after accepted =>
    rw [accepted.after_eq] at member
    exact .inl member
  | _ => exact .inl member

/-- The ids of admissions were drawn in the run. -/
theorem Reached.admissions_drawn (reached : Reached config) :
    Throughout (fun older event => ∀ row ∈ event.after.previewAdmissions,
      row.instanceId ∈ (event :: older).filterMap drawn) config.log := by
  refine (reached.induction (fun log db => ∀ row ∈ db.previewAdmissions, row.instanceId ∈ log.filterMap drawn) ?_ ?_
    ?_).2.mono fun _ _ both => both.2
  · exact fun row member => absurd member (Table.not_mem_empty row)
  · intro older event did same before row member
    rw [same] at member
    have none_ : drawn event = none := by unfold drawn; rw [did]
    rw [List.filterMap_cons_none none_]
    exact before row member
  · intro older event statement did _ _ write before row member
    rcases admitted_or_drawn did write member with old | drew
    · obtain ⟨seen,listed,same⟩ := List.mem_filterMap.mp (before row old)
      exact List.mem_filterMap.mpr ⟨seen,List.mem_cons_of_mem _ listed,same⟩
    · exact List.mem_filterMap.mpr ⟨event,List.mem_cons_self,drew⟩

/-- A cell that is gone after an event does not come back. -/
theorem Reached.stays_gone (reached : Reached config) (fresh : FreshIds config.log) {newer older : List Event}
    {event : Event} (log : config.log = newer ++ event :: older) {row : AdmissionRow}
    (admitted : row ∈ event.after.previewAdmissions) (gone : ¬ Standing row.workspaceId row.instanceId event.after) :
    ∀ recent later, newer = later ++ recent → ∀ db, Linked Db.empty (recent ++ event :: older) db →
      ¬ Standing row.workspaceId row.instanceId db := by
  intro recent later split db linked standing
  have drew := Interleaving.throughout_iff.mp reached.admissions_drawn newer event older log row admitted
  have writes := (reached.warranted _ reached.vetted).2
  have committed := reached.committed.all
  rw [FreshIds,log,List.filterMap_append] at fresh
  have apart := List.disjoint_of_nodup_append fresh
  -- Whatever stands at the end stood after the event: none of the later ones drew its id.
  have steps := linked.across (R := fun before after => Standing row.workspaceId row.instanceId after →
      Standing row.workspaceId row.instanceId before) fun seen member => by
    have listed : seen ∈ config.log := by rw [log,split]; simp [member]
    have began := committed seen listed
    intro after
    cases did : seen.did with
    | none =>
      rw [Interleaving.Committed,did] at began
      exact began ▸ after
    | some statement =>
      obtain ⟨warranted,_,write⟩ := (writes.all seen listed).2 statement did
      rcases standing_or_drawn did warranted write after with before | same
      · exact before
      · have here : row.instanceId ∈ newer.filterMap drawn :=
          List.mem_filterMap.mpr ⟨seen,by rw [split]; exact List.mem_append_right _ member,same⟩
        exact absurd drew (apart here)
  have back : ∀ {last : Db}, ReflTransGen (fun before after => Standing row.workspaceId row.instanceId after →
      Standing row.workspaceId row.instanceId before) event.after last → Standing row.workspaceId row.instanceId last →
        Standing row.workspaceId row.instanceId event.after := by
    intro last chain
    induction chain with
    | refl => exact id
    | tail _ step ih => exact fun there => ih (step there)
  exact gone (back steps standing)

/-- Plans and requests are bound once. A plan is admitted to one instance id and a
    request to one preview, for good; a plan whose cell is gone is refused without
    effect, and where no id is drawn twice a cell that is gone stays gone. -/
theorem previews_bound_once {config : Config} (reached : Reached config) :
    Throughout (fun _ event => Bound event.before event.after) config.log ∧
      (∀ first ∈ config.log, ∀ second ∈ config.log, ∀ workspace principal x y n m h k,
        first.request = .reservePreview workspace principal x n → second.request = .reservePreview workspace principal y m →
        x.id = y.id → first.reply = some (.ok (.handle h)) → second.reply = some (.ok (.handle k)) →
          h.instanceId = k.instanceId) ∧
      (∀ first ∈ config.log, ∀ second ∈ config.log, ∀ workspace principal request x y r s,
        first.request = .bindCellSubmission workspace principal request x →
        second.request = .bindCellSubmission workspace principal request y →
        first.reply = some (.ok r) → second.reply = some (.ok s) →
          x.id = y.id ∧ digestJson (.preview x) = digestJson (.preview y)) ∧
      (∀ row ∈ config.state.previewAdmissions, ¬ Standing row.workspaceId row.instanceId config.state →
        ∀ preview nonce, preview.id = row.planId → ∃ error,
          (reservePreview row.workspaceId row.principalId preview nonce).run.run execute config.state =
            (.error error,config.state)) ∧
      ∀ newer event older, config.log = newer ++ event :: older → ∀ row ∈ event.after.previewAdmissions,
        ¬ Standing row.workspaceId row.instanceId event.after → FreshIds config.log →
          ¬ Standing row.workspaceId row.instanceId config.state ∧
          ∀ later ∈ newer, ∀ preview nonce, preview.id = row.planId →
            later.did ≠ some (.reservePreview row.workspaceId row.principalId preview nonce) := by
  refine ⟨reached.bound,?_,?_,?_,?_⟩
  · intro first firstIn second secondIn workspace principal x y n m h k began again same firstOk secondOk
    have a := reached.promised firstIn firstOk
    have b := reached.promised secondIn secondOk
    rw [began] at a
    rw [again] at b
    have one := Table.eq_of_key a b (by simp [key,same])
    exact congrArg AdmissionRow.instanceId one
  · intro first firstIn second secondIn workspace principal request x y r s began again firstOk secondOk
    have a := reached.promised firstIn firstOk
    have b := reached.promised secondIn secondOk
    rw [began] at a
    rw [again] at b
    have one := Table.eq_of_key a b rfl
    exact ⟨congrArg SubmissionRow.previewId one,congrArg SubmissionRow.previewDigest one⟩
  · rintro ⟨workspace,principal,plan,id⟩ member gone preview nonce rfl
    exact reservePreview_gone nonce member gone
  · intro newer event older log row admitted gone fresh
    have linked := reached.linked
    have bound := reached.bound.all
    rw [log] at linked bound
    refine ⟨reached.stays_gone fresh log admitted gone newer [] rfl _ linked,?_⟩
    rintro later member preview nonce plan did
    obtain ⟨front,back,rfl⟩ := List.append_of_mem member
    rw [List.append_assoc,List.cons_append] at linked
    have before := linked.until
    have absent := reached.stays_gone fresh log admitted gone back (front ++ [later]) (by simp) _ before
    have kept := Bound.many (before.across (R := Bound) fun seen listed => bound seen (by simp [listed]))
    have executed := reached.committed.all later (by rw [log]; simp)
    rw [Interleaving.Committed,did] at executed
    obtain ⟨_,accepted⟩ := executed
    obtain ⟨workspace,principal,plan_,id⟩ := row
    obtain rfl : preview.id = plan_ := plan
    obtain ⟨error,refused⟩ := reservePreviewTx_gone nonce (kept.admissions _ admitted) absent
    rw [execute,refused] at accepted
    cases accepted
end

section
attribute [local instance] CoreFunctions.sample

def samplePreview : CellPreview := ⟨"plan-1","request","shop",sampleCell ["alice"],"revision","lock",none⟩

/-- The cell that the sample preview is admitted to with the nonce `n1`. -/
def sampleHandle : CellHandle :=
  ⟨"shop",1,"p",digestJson (.cell (sampleCell ["alice"])),.opened,cellId (digestJson (.nonce "w" "shop" "n1"))⟩

/-- A created cell is closed and its handle deleted, another principal takes the
    name, and the plan is tried again. -/
def nameReused : Config :=
  ran (inTurn (prepared [] ++
    [.saveCellPreview "w" "p" samplePreview,.bindCellSubmission "w" "p" "r1" samplePreview,
      .reservePreview "w" "p" samplePreview "n1",.setCellPhase "w" "p" sampleHandle .closed,
      .purgeUnmaterializedHandle "w" sampleHandle.instanceId,.reserveCell "w" "q" "shop" "digest" "n2",
      .reservePreview "w" "p" samplePreview "n3",.bindCellSubmission "w" "p" "r1" samplePreview]))

set_option maxRecDepth 100000 in
theorem previews_bound_once_nameReused :
    (∃ row ∈ nameReused.state.cellHandles.rows, row.name = "shop" ∧ row.owner = "q") ∧
    ¬ Standing "w" sampleHandle.instanceId nameReused.state ∧
    (∃ error, (reservePreview "w" "p" samplePreview "n4").run.run execute nameReused.state =
      (.error error,nameReused.state)) ∧
    ∀ later ∈ nameReused.log.take 10, ∀ nonce, later.did ≠ some (.reservePreview "w" "p" samplePreview nonce) := by
  have seen : (∃ row ∈ nameReused.state.cellHandles.rows, row.name = "shop" ∧ row.owner = "q") ∧
      FreshIds nameReused.log ∧ nameReused.log[10]?.isSome = true ∧
      (⟨"w","p","plan-1",sampleHandle.instanceId⟩ : AdmissionRow) ∈ nameReused.state.previewAdmissions.rows ∧
      ∀ event ∈ nameReused.log[10]?, (⟨"w","p","plan-1",sampleHandle.instanceId⟩ : AdmissionRow) ∈
        event.after.previewAdmissions.rows ∧ ¬ Standing "w" sampleHandle.instanceId event.after := by decide +kernel
  obtain ⟨reused,fresh,there,kept,purge⟩ := seen
  obtain ⟨event,found⟩ := Option.isSome_iff_exists.mp there
  obtain ⟨admitted,gone⟩ := purge event found
  obtain ⟨bound,here⟩ := List.getElem?_eq_some_iff.mp found
  have log : nameReused.log = nameReused.log.take 10 ++ event :: nameReused.log.drop 11 := by
    rw [← here,← List.drop_eq_getElem_cons bound,List.take_append_drop]
  obtain ⟨_,_,_,refused,stays⟩ := previews_bound_once (ran_reached _ : Reached nameReused)
  obtain ⟨absent,never⟩ := stays _ _ _ log _ admitted gone fresh
  exact ⟨reused,absent,refused _ kept absent samplePreview "n4" rfl,
    fun later member nonce => never later member samplePreview nonce rfl⟩
end

end Proofstorm.Store
