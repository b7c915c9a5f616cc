import Proofstorm.Custody.Fences

/-!
What a vault holds. The bodies are those of the transfers with capacity, which stay
within the limits of the newest reservation (`inForce`); what was released, expired
or closed stays empty, whatever comes late.
-/
namespace Proofstorm.Custody
open Proofstorm.Interleaving (Throughout)

/-! ### Reservations -/

/-- The limits that a reservation was made under. -/
def reservedBy (event : Event) : Option Limits :=
  match event.did with
  | some (.prepare limits ..) =>
    if event.before.transfers.rows.length < event.after.transfers.rows.length then some limits else none
  | _ => none

/-- The limits of the newest reservation. -/
def inForce (log : List Event) : Option Limits := log.findSome? reservedBy

/-- The capacity of all transfers. -/
def used (db : Db) : Nat := ((holding db).map TransferRow.capacity).sum

/-- What is held is within the limits. -/
structure Bounded (limits : Limits) (db : Db) : Prop where
  active : (holding db).length ≤ limits.activeTransfers
  bytes : used db ≤ limits.cellBytes

/-- Transfers that only lose capacity. -/
theorem holding_shrinks (f : TransferRow → TransferRow) {list : List TransferRow}
    (less : ∀ row ∈ list, (f row).capacity ≤ row.capacity) :
    ((list.map f).filter fun row => 0 < row.capacity).length ≤ (list.filter fun row => 0 < row.capacity).length ∧
      (((list.map f).filter fun row => 0 < row.capacity).map TransferRow.capacity).sum ≤
        ((list.filter fun row => 0 < row.capacity).map TransferRow.capacity).sum := by
  induction list with
  | nil => exact ⟨Nat.le_refl _,Nat.le_refl _⟩
  | cons first rest ih =>
    obtain ⟨count,sum⟩ := ih fun row member => less row (List.mem_cons_of_mem _ member)
    have own := less first List.mem_cons_self
    simp only [List.map_cons,List.filter_cons,decide_eq_true_eq]
    by_cases after : 0 < (f first).capacity
    · have before : 0 < first.capacity := by omega
      simp only [if_pos after,if_pos before,List.length_cons,List.map_cons,List.sum_cons]
      omega
    · rw [if_neg after]
      split
      · simp only [List.length_cons,List.map_cons,List.sum_cons]
        omega
      · exact ⟨count,sum⟩

theorem Bounded.shrinks {limits : Limits} {db after : Db} (bounded : Bounded limits db) (f : TransferRow → TransferRow)
    (rows : after.transfers.rows = db.transfers.rows.map f)
    (less : ∀ row ∈ db.transfers, (f row).capacity ≤ row.capacity) : Bounded limits after := by
  obtain ⟨count,sum⟩ := holding_shrinks f less
  refine ⟨?_,?_⟩
  · rw [holding,rows]
    exact Nat.le_trans count bounded.active
  · rw [used,holding,rows]
    exact Nat.le_trans sum bounded.bytes

section
variable [Sha256] {statement : Statement} {db after : Db} {row next : TransferRow}

omit [Sha256] in
/-- Replacing a row is a map over the rows. -/
theorem replaced_map (member : row ∈ db.transfers) (rows : after.transfers = (replaced next db).transfers)
    (same : row.handle = next.handle) (less : next.capacity ≤ row.capacity) :
    ∃ f, after.transfers.rows = db.transfers.rows.map f ∧ ∀ row ∈ db.transfers, (f row).capacity ≤ row.capacity := by
  rw [rows]
  refine ⟨_,rfl,fun other there => ?_⟩
  by_cases named : other.handle = next.handle
  · rw [if_pos named,row_unique there member (named.trans same.symm)]
    exact less
  · simp only [if_neg named,Nat.le_refl]

omit [Sha256] in
/-- A reservation that was let through is within the limits. -/
theorem bounded_reservation {limits : Limits} (rows : after.transfers.rows = db.transfers.rows ++ [next])
    (count : (holding db).length < limits.activeTransfers) (room : used db + next.capacity ≤ limits.cellBytes) :
    Bounded limits after := by
  have held : holding after = holding db ++ [next].filter fun row => 0 < row.capacity := by
    rw [holding,rows,List.filter_append]
    rfl
  refine ⟨?_,?_⟩
  · rw [held,List.length_append]
    have one : ([next].filter fun row => 0 < row.capacity).length ≤ 1 := List.length_filter_le _ _
    omega
  · rw [used,held,List.map_append,List.sum_append]
    refine Nat.le_trans (Nat.add_le_add_left ?_ _) room
    by_cases positive : 0 < next.capacity
    · simp [positive]
    · simp [positive]

/-- An effect makes a reservation, or only takes capacity away. -/
theorem Effect.capacity (effect : Effect statement db after) :
    (∃ limits source destination requestKey maximumBytes random reserved,
      statement = .prepare limits source destination requestKey maximumBytes random ∧
      after.transfers.rows = db.transfers.rows ++ [reserved] ∧ Bounded limits after) ∨
    ∃ f, after.transfers.rows = db.transfers.rows.map f ∧ ∀ row ∈ db.transfers, (f row).capacity ≤ row.capacity := by
  have same : ∃ f, db.transfers.rows = db.transfers.rows.map f ∧ ∀ row ∈ db.transfers, (f row).capacity ≤ row.capacity :=
    ⟨id,(List.map_id _).symm,fun _ _ => Nat.le_refl _⟩
  cases effect with
  | setClock => exact .inr same
  | close => exact .inr same
  | again => exact .inr same
  | prepare limits source destination requestKey maximumBytes random _ index timestamp _ positive _ _ unnamed _ room =>
    have free : db.transfers.find (key (reservation limits source destination requestKey maximumBytes random index
      timestamp db)) = none := unnamed
    have rows := Table.insert_of_free free
    refine .inl ⟨limits,source,destination,requestKey,maximumBytes,random,_,rfl,rows,?_⟩
    exact bounded_reservation rows room.1 room.2
  | handoff _ _ _ _ row member => exact .inr (replaced_map member rfl rfl (Nat.le_refl _))
  | beginCapture _ _ _ _ row member => exact .inr (replaced_map member rfl rfl (Nat.le_refl _))
  | save _ _ row member => exact .inr (replaced_map member rfl rfl (Nat.le_refl _))
  | stage _ _ _ _ _ row _ _ member => exact .inr (replaced_map member rfl rfl (Nat.le_refl _))
  | deliver _ _ _ _ row _ _ _ member => exact .inr (replaced_map member rfl rfl (Nat.le_refl _))
  | beginReceive _ _ _ _ _ row member => exact .inr (replaced_map member rfl rfl (Nat.le_refl _))
  | consume _ _ _ _ row member => exact .inr (replaced_map member rfl rfl (Nat.le_refl _))
  | erase _ _ _ _ row member => exact .inr (replaced_map member rfl rfl (Nat.zero_le _))

/-- What is held is within the limits of the newest reservation, and before the first nothing is held. -/
structure Within (log : List Event) (db : Db) : Prop where
  bounded : ∀ limits ∈ inForce log, Bounded limits db
  none_ : inForce log = none → holding db = []

theorem Within.cons {log : List Event} {event : Event} (within : Within log event.before) (regular : Regular event) :
    Within (event :: log) event.after := by
  have still : (∃ f, event.after.transfers.rows = event.before.transfers.rows.map f ∧
      ∀ row ∈ event.before.transfers, (f row).capacity ≤ row.capacity) → Within (event :: log) event.after := by
    rintro ⟨f,rows,less⟩
    have forced : inForce (event :: log) = inForce log := by
      have length : ¬ event.before.transfers.rows.length < event.after.transfers.rows.length := by
        rw [rows,List.length_map]
        omega
      have silent : reservedBy event = none := by
        rw [reservedBy]
        split
        · exact if_neg length
        · rfl
      rw [inForce,List.findSome?_cons,silent]
      rfl
    refine ⟨fun limits member => ?_,fun nothing => ?_⟩
    · rw [forced] at member
      exact (within.bounded limits member).shrinks f rows less
    · rw [forced] at nothing
      have fewer := (holding_shrinks f less).1
      have empty : event.before.transfers.rows.filter (fun row => 0 < row.capacity) = [] := within.none_ nothing
      rw [empty,← rows] at fewer
      exact List.length_eq_zero_iff.mp (Nat.le_zero.mp fewer)
  cases did : event.did with
  | none =>
    rw [regular.still did] at still ⊢
    exact still ⟨id,(List.map_id _).symm,fun _ _ => Nat.le_refl _⟩
  | some statement =>
    rcases (regular.effect statement did).capacity with ⟨limits,source,destination,requestKey,maximumBytes,random,reserved,rfl,rows,bounded⟩ | same
    · have forced : inForce (event :: log) = some limits := by
        have length : event.before.transfers.rows.length < event.after.transfers.rows.length := by
          rw [rows,List.length_append]
          exact Nat.lt_succ_self _
        have named : reservedBy event = some limits := by
          rw [reservedBy,did]
          exact if_pos length
        rw [inForce,List.findSome?_cons,named]
      refine ⟨fun other member => ?_,fun nothing => ?_⟩
      · rw [forced] at member
        cases member
        exact bounded
      · rw [forced] at nothing
        cases nothing
    · exact still same

theorem Reached.within {workspace cell : String} {config : Config} (reached : Reached workspace cell config) :
    Within config.log config.state := by
  have first : Within [] (Db.empty workspace cell) := ⟨fun limits none_ => (nomatch none_),fun _ => rfl⟩
  have step : ∀ older event, Within older event.before → Regular event → Within (event :: older) event.after ∧ True :=
    fun _ _ within regular => ⟨within.cons regular,trivial⟩
  exact (reached.linked.induction reached.regular first step).1

/-! ### Retired transfers -/

/-- The bodies are two for each transfer that has capacity, of the size that it reserved. -/
structure Accounted (db : Db) : Prop where
  held : ∀ row ∈ db.transfers, 0 < row.capacity → row.capacity = row.metadata.maximumBytes * 2 ∧
    ∃ source inbox, (⟨sourceBody row.id,source⟩ : PayloadRow) ∈ db.payloads ∧ (⟨inboxBody row.id,inbox⟩ : PayloadRow) ∈ db.payloads ∧
      source.length = row.metadata.maximumBytes ∧ inbox.length = row.metadata.maximumBytes
  owned : ∀ body ∈ db.payloads, ∃ row ∈ db.transfers, 0 < row.capacity ∧ placeOf row.id body.id
  places : ∀ a ∈ db.transfers, ∀ b ∈ db.transfers, a.id = b.id → a = b
  erased : ∀ row ∈ db.transfers, row.metadata.capture.retired = true → row.capacity = 0

theorem Sound.accounted (sound : Sound db) : Accounted db where
  held := fun row member positive => by
    have own := sound.rows row member
    cases retired : row.metadata.capture.retired with
    | true =>
      rw [own.erased retired] at positive
      omega
    | false =>
      obtain ⟨source,inbox,captured,space,facts⟩ := own.bodies retired
      exact ⟨own.reserved retired,source,inbox,captured,space,facts.sourceLength,facts.inboxLength⟩
  owned := fun body held => by
    obtain ⟨row,member,live,place⟩ := sound.owned body held
    have own := sound.rows row member
    refine ⟨row,member,?_,place⟩
    have reserved := own.reserved live
    have positive := own.positive
    omega
  places := sound.places
  erased := fun row member => (sound.rows row member).erased

/-- The transfer that a statement works on under admission. -/
def Statement.admits : Statement → Option String
  | .beginCapture _ t _ | .stage _ _ t _ | .deliver _ _ t | .beginReceive _ _ t _ | .consume _ _ t => some t.id
  | _ => none

/-- The transfer that a method works on only while it is not retired. -/
def Method.admits : Method → Option String
  | .beginCapture _ id _ | .capture _ id .. | .deliver _ id | .beginReceive _ id _ => some id
  | _ => none

theorem execute_admits {answer : statement.Answer} {id : String} (records : Named db)
    (executed : execute statement db = .ok (answer,after)) (admits : statement.admits = some id) :
    ∃ row ∈ db.transfers, row.handle = id ∧ row.metadata.capture.retired = false := by
  have live : ∀ {grant : Grant} {t : Transfer} {u : Unit}, admission grant t db = .ok u →
      ∃ row ∈ db.transfers, row.handle = t.id ∧ row.metadata.capture.retired = false := by
    intro grant t u admitted
    obtain ⟨_,row,member,named,_,live⟩ := admission_ok admitted
    exact ⟨row,member,named,live⟩
  cases statement with
  | beginCapture grant t operation =>
    cases admits
    simp only [execute,beginCaptureTx,bind_ok] at executed
    obtain ⟨_,admitted,_⟩ := executed
    exact live admitted
  | stage grant index t reader =>
    cases admits
    simp only [execute,stageTx,bind_ok] at executed
    obtain ⟨row,read,_,_,_,admitted,_⟩ := executed
    obtain ⟨member,named⟩ := rowOf_ok.mp read
    obtain ⟨other,there,same,live⟩ := live admitted
    exact ⟨other,there,same.trans ((records row member).trans named),live⟩
  | deliver grant index t =>
    cases admits
    simp only [execute,deliverTx,bind_ok] at executed
    obtain ⟨_,admitted,_⟩ := executed
    exact live admitted
  | beginReceive grant index t operation =>
    cases admits
    simp only [execute,beginReceiveTx,bind_ok] at executed
    obtain ⟨_,admitted,_⟩ := executed
    exact live admitted
  | consume grant index t =>
    cases admits
    simp only [execute,consumeTx,bind_ok] at executed
    obtain ⟨_,admitted,_⟩ := executed
    exact live admitted
  | _ => cases admits

/-- The event works on the transfer for a method that asks for a transfer that is not retired. -/
def Admits (event : Event) (id : String) : Prop :=
  ∃ workspace cell limits method, event.request = .call workspace cell limits method ∧
    ((method.admits = some id ∧ (event.did.isSome ∨ ∃ t, event.reply = some (.ok (.transfer t)))) ∨
      ∃ grant operation writer index t, method = .consume grant id operation writer ∧
        event.did = some (.consume grant index t))

/-- What retires a transfer is final, so what works on it finds it live. -/
theorem Regular.admits {event : Event} {id : String} (regular : Regular event)
    (earned : ∀ reply, event.reply = some reply → Counted event.request reply →
      ∃ statement, event.did = some statement ∧ Earned event.request statement) (admits : Admits event id) :
    ∀ row ∈ event.before.transfers, row.handle = id → row.metadata.capture.retired = false := by
  suffices found : ∃ row ∈ event.before.transfers, row.handle = id ∧ row.metadata.capture.retired = false by
    intro row member named
    obtain ⟨other,there,same,live⟩ := found
    exact row_unique there member (same.trans named.symm) ▸ live
  have records : Named event.before := fun row member => (regular.before.rows row member).named
  have executed : ∀ {statement : Statement}, event.did = some statement → statement.admits = some id →
      ∃ row ∈ event.before.transfers, row.handle = id ∧ row.metadata.capture.retired = false := by
    intro statement did admits
    obtain ⟨answer,executed⟩ := regular.executed statement did
    exact execute_admits records executed admits
  obtain ⟨workspace,cell,limits,method,asked,works⟩ := admits
  rcases works with ⟨admits,works⟩ | ⟨grant,operation,writer,index,t,rfl,did⟩
  · have did : ∃ statement, event.did = some statement := by
      rcases works with did | ⟨t,replied⟩
      · exact Option.isSome_iff_exists.mp did
      · have found := earned _ replied
        rw [asked] at found
        cases method with
        | beginCapture => exact (found ⟨t,rfl⟩).imp fun _ both => both.1
        | capture => exact (found ⟨t,rfl⟩).imp fun _ both => both.1
        | deliver => exact (found ⟨t,rfl⟩).imp fun _ both => both.1
        | beginReceive => exact (found ⟨t,rfl⟩).imp fun _ both => both.1
        | _ => cases admits
    obtain ⟨statement,did⟩ := did
    have issues := (regular.issued statement did _ _ _ _ asked).1
    cases method with
    | beginCapture =>
      cases admits
      obtain ⟨t,rfl,rfl⟩ := issues
      exact executed did rfl
    | capture =>
      cases admits
      rcases issues with ⟨t,rfl,rfl,live⟩ | ⟨index,t,rfl,rfl⟩
      · -- A save of the capture leaves the transfer live, so it found it live.
        have effect := regular.effect _ did
        have follows := regular.follows
        generalize event.before = before at effect follows ⊢
        generalize event.after = after at effect follows
        cases effect with
        | again _ _ repeats => cases repeats
        | save _ _ row member named =>
          refine ⟨row,member,named,?_⟩
          have later := follows.row member (replaced_mem _ member rfl) rfl
          by_contra retired
          rw [Bool.not_eq_false] at retired
          rw [show t.capture.retired = true from later.retired retired] at live
          cases live
      · exact executed did rfl
    | deliver =>
      cases admits
      obtain ⟨index,t,rfl,rfl⟩ := issues
      exact executed did rfl
    | beginReceive =>
      cases admits
      obtain ⟨index,t,rfl,rfl⟩ := issues
      exact executed did rfl
    | _ => cases admits
  · obtain ⟨issues,_⟩ := regular.issued _ did _ _ _ _ asked
    rcases issues with ⟨_,_,same,rfl⟩ | ⟨_,wrong,_⟩
    · cases same
      exact executed did rfl
    · cases wrong

/-- What a vault holds is accounted for, in every state of every run: two bodies for
    each transfer with capacity, within the limits of the newest reservation. A retired
    transfer stays retired, its bodies stay gone, and nothing that needs it live comes
    through. Once a close has returned, all later states are empty. -/
theorem capacity_accounted {workspace cell : String} {config : Config} (reached : Reached workspace cell config) :
    Accounted config.state ∧
    (∀ limits ∈ inForce config.log, Bounded limits config.state) ∧
    (inForce config.log = none → holding config.state = []) ∧
    Throughout (fun _ event =>
      (∀ row ∈ event.before.transfers, row.metadata.capture.retired = true → ∃ next ∈ event.after.transfers,
        next.handle = row.handle ∧ next.metadata.capture.retired = true ∧ next.capacity = 0 ∧
          ∀ body ∈ event.after.payloads, ¬ placeOf next.id body.id) ∧
      ∀ id, Admits event id → ∀ row ∈ event.before.transfers, row.handle = id → row.metadata.capture.retired = false)
      config.log ∧
    ∀ event ∈ config.log, ∀ workspace cell limits receipt, event.request = .call workspace cell limits .close →
      event.reply = some (.ok (.closed receipt)) →
        receipt.remainingPayloadBytes = 0 ∧ receipt.storageCleanupVerified = true ∧ config.state.closed = true ∧
          config.state.payloads.rows = [] ∧ ∀ row ∈ config.state.transfers, row.capacity = 0 := by
  have sound := reached.kept.1
  refine ⟨sound.accounted,reached.within.bounded,reached.within.none_,(reached.regular.and reached.earned).mono ?_,?_⟩
  · rintro _ event ⟨regular,earned⟩
    refine ⟨fun row member retired => ?_,fun id admits => regular.admits earned admits⟩
    obtain ⟨next,there,later⟩ := regular.follows.later row member
    have gone := later.retired retired
    refine ⟨next,there,later.handle,gone,(regular.after.rows next there).erased gone,fun body held place => ?_⟩
    obtain ⟨other,here,live,mine⟩ := regular.after.owned body held
    rw [regular.after.places other here next there (placeOf_apart mine place),gone] at live
    cases live
  · intro event member workspace cell limits receipt asked replied
    have promised := (reached.regular.all event member).promised _ replied
    rw [asked] at promised
    obtain ⟨cleaned,remaining,verified⟩ := promised
    have cleaned := cleaned.follows (reached.onward member)
    exact ⟨remaining,verified,cleaned.closed,cleaned.empty sound⟩
end

/-! ### A run -/

section
attribute [local instance] Sha256.sample

/-- A transfer is delivered and the vault is closed; a delivery, a preparation and a
    second close come late. -/
def closedLate : Config :=
  ran (inTurn (sampleDelivery ++ [.close,.deliver sampleDestination sampleHandle,
    .prepare sampleSource sampleDestination "k2" 4 (.replicate 16 1),.close]))

set_option maxRecDepth 100000 in
theorem capacity_accounted_closedLate :
    inForce closedLate.log = some .default ∧ Bounded .default closedLate.state ∧
    closedLate.state.transfers.rows.map (fun row => row.metadata.capture) = [CapturePhase.released] ∧
    closedLate.state.payloads.rows = [] := by
  have seen : inForce closedLate.log = some .default ∧
      closedLate.state.transfers.rows.map (fun row => row.metadata.capture) = [CapturePhase.released] ∧
      ∃ event ∈ closedLate.log, event.request = .call "w" "c" .default .close ∧
        event.reply = some (.ok (.closed ⟨true,1,0,0,true⟩)) := by decide +kernel
  obtain ⟨forced,phases,event,member,asked,replied⟩ := seen
  have reached : Reached "w" "c" closedLate := ran_reached _
  obtain ⟨_,bounded,_,_,closes⟩ := capacity_accounted reached
  exact ⟨forced,bounded _ forced,phases,(closes event member _ _ _ _ asked replied).2.2.2.1⟩
end

end Proofstorm.Custody
