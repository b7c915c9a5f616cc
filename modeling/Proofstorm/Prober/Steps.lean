import Proofstorm.Prober.Scheduler

/-!
What each operation of the scheduler does to one cell. An edit renews the targets
that changed and leaves the others (`get_edit_generations`, `queued_edit`), a drain
takes each due entry to the batch (`queued_drain`), and a conclusion puts the
targets that the job still holds back (`queued_conclude`) with what a valid
response says of them (`observed_conclude`).
-/
namespace Proofstorm.Prober

namespace Cell

/-- How often the component is in the heap. -/
def queued (cell : Cell) (component : String) : Nat := cell.due.count fun entry => entry.component = component

/-! ### Registration -/

section
variable (sequence nowMillis : Nat)

theorem renew_all (keys : List String) (cell : Cell) :
    let renewed := keys.foldl (fun cell key => cell.renew sequence nowMillis key) cell
    renewed.identity = cell.identity ∧ renewed.generation = cell.generation ∧
      renewed.observations = cell.observations := by
  induction keys generalizing cell with
  | nil => exact ⟨rfl,rfl,rfl⟩
  | cons key rest ih => exact ih _

theorem get_renew_all (keys : List String) (cell : Cell) (component : String) :
    (keys.foldl (fun cell key => cell.renew sequence nowMillis key) cell).targetGenerations[component]? =
      if component ∈ keys then some sequence else cell.targetGenerations[component]? := by
  induction keys generalizing cell with
  | nil => simp
  | cons key rest ih =>
    rw [List.foldl_cons,ih,renew,BTreeMap.get_insert]
    by_cases later : component ∈ rest
    · simp [later]
    · by_cases here : key = component
      · simp [here]
      · simp [later,here,Ne.symm here]

theorem queued_renew_all (keys : List String) (cell : Cell) (component : String) :
    (keys.foldl (fun cell key => cell.renew sequence nowMillis key) cell).queued component =
      cell.queued component + keys.count component := by
  induction keys generalizing cell with
  | nil => simp
  | cons key rest ih =>
    rw [List.foldl_cons,ih,List.count_cons]
    simp only [queued,renew,Heap.count_push,beq_iff_eq]
    omega

variable (cell : Cell) (targets : BTreeMap String ScheduledTarget)

theorem edit_frame : (cell.edit targets sequence nowMillis).identity = cell.identity ∧
    (cell.edit targets sequence nowMillis).generation = cell.generation := by
  obtain ⟨identity,generation,_⟩ := renew_all sequence nowMillis
    (targets.keys.filter fun key => cell.changed targets key)
    { cell with
      observations := cell.observations.filter fun key _ => ¬ cell.changed targets key
      due := cell.due.retain fun entry => ¬ cell.changed targets entry.component
      targetGenerations := cell.targetGenerations.filter fun key _ => ¬ cell.changed targets key }
  exact ⟨identity,generation⟩

theorem edit_targets : (cell.edit targets sequence nowMillis).targets = targets := rfl

theorem edit_observations : (cell.edit targets sequence nowMillis).observations =
    cell.observations.filter fun key _ => ¬ cell.changed targets key :=
  (renew_all sequence nowMillis _ _).2.2

theorem mem_renewed {component : String} :
    component ∈ targets.keys.filter (fun key => cell.changed targets key) ↔
      component ∈ targets ∧ cell.changed targets component := by
  simp

theorem get_edit_generations (component : String) :
    (cell.edit targets sequence nowMillis).targetGenerations[component]? =
      if cell.changed targets component then (if component ∈ targets then some sequence else none)
      else cell.targetGenerations[component]? := by
  refine (get_renew_all sequence nowMillis _ _ component).trans ?_
  simp only [mem_renewed,BTreeMap.get_filter]
  by_cases changed : cell.changed targets component
  · by_cases present : component ∈ targets
    · simp [changed,present]
    · simp [changed,present]
  · cases found : cell.targetGenerations[component]? <;> simp [changed]

theorem queued_edit (component : String) :
    (cell.edit targets sequence nowMillis).queued component =
      if cell.changed targets component then (if component ∈ targets then 1 else 0) else cell.queued component := by
  refine (queued_renew_all sequence nowMillis _ _ component).trans ?_
  have distinct : (targets.keys.filter fun key => cell.changed targets key).Nodup :=
    (Std.ExtTreeMap.nodup_keys).filter _
  rw [List.Nodup.count distinct,queued,Heap.count_retain]
  simp only [mem_renewed]
  by_cases changed : cell.changed targets component
  · have none : cell.due.count (fun entry => entry.component = component ∧ ¬ cell.changed targets entry.component) = 0 := by
      rw [Heap.count,List.countP_eq_zero]
      simp +contextual [changed]
    simp [none,changed]
  · have same : cell.due.count (fun entry => entry.component = component ∧ ¬ cell.changed targets entry.component) =
        cell.queued component := Heap.count_congr _ (by simp +contextual [changed])
    simp [same,changed]
end

theorem get_fresh_generations (identity : Identity) (targets : BTreeMap String ScheduledTarget)
    (sequence nowMillis : Nat) (component : String) :
    (fresh identity targets sequence nowMillis).targetGenerations[component]? =
      if component ∈ targets then some sequence else none := by
  have distinct : ((targets.keys.map fun key => (key,sequence)).map Prod.fst).Nodup := by
    simpa [Function.comp_def] using Std.ExtTreeMap.nodup_keys
  have listed := fun generation : Nat => @BTreeMap.get_collect _ _ _ _ _ _ distinct component generation
  by_cases present : component ∈ targets
  · rw [if_pos present]
    exact (listed sequence).mpr (by simpa using present)
  · rw [if_neg present,Option.eq_none_iff_forall_ne_some]
    intro generation found
    obtain ⟨key,there,same⟩ := List.mem_map.mp ((listed generation).mp found)
    cases same
    exact present (Std.ExtTreeMap.mem_keys.mp there)

theorem queued_fresh (identity : Identity) (targets : BTreeMap String ScheduledTarget) (sequence nowMillis : Nat)
    (component : String) :
    (fresh identity targets sequence nowMillis).queued component = if component ∈ targets then 1 else 0 := by
  rw [queued,fresh,Heap.count_collect,List.countP_map]
  have counts : targets.keys.countP ((fun entry : Due => decide (entry.component = component)) ∘
      fun key => Due.mk nowMillis key) = targets.keys.count component :=
    List.countP_congr (by simp)
  rw [counts,Std.ExtTreeMap.nodup_keys.count]
  simp

/-! ### Dispatch -/

section
variable {cell : Cell} {nowMillis : Nat}

/-- A drain takes what it pops to the batch, and each target of the batch is the
    cell's under the name that was due. -/
theorem queued_drain (named : ∀ component (target : ScheduledTarget), cell.targets[component]? = some target →
      target.probe.component = component) {room : Nat} {due left : Heap Due} {batch : List Target}
    (drained : cell.drain nowMillis room due = (some batch,left)) :
    (∀ component, (due.count fun entry => entry.component = component) =
      (left.count fun entry => entry.component = component) + (batch.map Target.component).count component) ∧
    (∀ probe ∈ batch, ∃ target, cell.targets[probe.component]? = some target ∧ target.probe = probe) := by
  induction room generalizing due batch with
  | zero =>
    simp only [drain,Prod.mk.injEq,Option.some.injEq] at drained
    obtain ⟨rfl,rfl⟩ := drained
    simp
  | succ room ih =>
    rw [drain] at drained
    split at drained
    · simp only [Prod.mk.injEq,Option.some.injEq] at drained
      obtain ⟨rfl,rfl⟩ := drained
      simp
    · rename_i entry rest popped
      split at drained
      · split at drained
        · simp at drained
        · rename_i target found
          obtain ⟨more,tail⟩ : ∃ more, cell.drain nowMillis room rest = (some more,left) ∧ batch = target.probe :: more := by
            cases inner : cell.drain nowMillis room rest with
            | mk more heap =>
              rw [inner] at drained
              cases more <;> simp_all
          obtain ⟨counts,from_cell⟩ := ih tail.1
          refine ⟨fun component => ?_,?_⟩
          · rw [Heap.count_pop _ popped,counts,tail.2,List.map_cons,List.count_cons,named _ _ found]
            simp only [beq_iff_eq]
            omega
          · rw [tail.2]
            rintro probe (_ | ⟨_,member⟩)
            · exact ⟨target,by rw [named _ _ found]; exact found,rfl⟩
            · exact from_cell probe member
      · simp only [Prod.mk.injEq,Option.some.injEq] at drained
        obtain ⟨rfl,rfl⟩ := drained
        simp

/-- A heap that names only targets is drained to a batch. -/
theorem drain_some (nowMillis room : Nat) {due : Heap Due} (known : ∀ entry ∈ due, entry.component ∈ cell.targets) :
    ∃ batch left, cell.drain nowMillis room due = (some batch,left) := by
  induction room generalizing due with
  | zero => exact ⟨[],due,rfl⟩
  | succ room ih =>
    rw [drain]
    split
    · exact ⟨[],due,rfl⟩
    · rename_i entry rest popped
      split
      · obtain ⟨target,found⟩ := BTreeMap.mem_iff.mp (known entry ((Heap.mem_pop popped).mpr (.inl rfl)))
        obtain ⟨batch,left,drained⟩ := ih fun other member => known other ((Heap.mem_pop popped).mpr (.inr member))
        exact ⟨target.probe :: batch,left,by simp [found,drained]⟩
      · exact ⟨[],due,rfl⟩

/-- An empty batch leaves the heap as it was. -/
theorem drain_nil {room : Nat} {due left : Heap Due} (drained : cell.drain nowMillis room due = (some [],left)) :
    left = due := by
  cases room with
  | zero => simpa [drain,eq_comm] using drained
  | succ room =>
    rw [drain] at drained
    split at drained
    · simpa [eq_comm] using drained
    · split at drained
      · split at drained
        · simp at drained
        · simp [Prod.ext_iff] at drained
      · simpa [eq_comm] using drained
end

/-- The numbers of a batch are the cell's. -/
theorem get_generationsOf {cell : Cell} {batch : List Target} {generations : BTreeMap String Nat}
    (distinct : (batch.map Target.component).Nodup) (read : cell.generationsOf batch = .ok generations)
    (component : String) (generation : Nat) :
    generations[component]? = some generation ↔
      component ∈ batch.map Target.component ∧ cell.targetGenerations[component]? = some generation := by
  simp only [generationsOf,bind_ok,pure_ok,mapM_ok] at read
  obtain ⟨pairs,each,rfl⟩ := read
  have paired : pairs.map Prod.fst = batch.map Target.component ∧
      ∀ pair ∈ pairs, cell.targetGenerations[pair.1]? = some pair.2 := by
    clear distinct
    induction each with
    | nil => simp
    | cons first _ ih =>
      obtain ⟨number,found,rfl⟩ := first
      rw [index,require_ok] at found
      simp [ih.1,found]
      exact fun key generation member => ih.2 _ member
  rw [BTreeMap.get_collect (paired.1 ▸ distinct)]
  constructor
  · intro member
    exact ⟨paired.1 ▸ List.mem_map_of_mem member,paired.2 _ member⟩
  · rintro ⟨member,found⟩
    rw [← paired.1] at member
    obtain ⟨⟨key,number⟩,present,rfl⟩ := List.mem_map.mp member
    have same := (paired.2 _ present).symm.trans found
    cases same
    exact present

theorem generationsOf_ok {cell : Cell} {batch : List Target}
    (known : ∀ probe ∈ batch, probe.component ∈ cell.targetGenerations) :
    ∃ generations, cell.generationsOf batch = .ok generations := by
  have each : ∀ probe ∈ batch, ∃ pair, (do
      let generation ← index cell.targetGenerations probe.component
      return (probe.component,generation) : Except Panic (String × Nat)) = .ok pair := by
    intro probe member
    obtain ⟨generation,found⟩ := BTreeMap.mem_iff.mp (known probe member)
    exact ⟨(probe.component,generation),by simp [index,found,pure,Except.pure]⟩
  obtain ⟨pairs,read⟩ := mapM_succeeds each
  refine ⟨.collect pairs,?_⟩
  simp only [generationsOf,bind_ok,pure_ok]
  exact ⟨pairs,read,rfl⟩

/-! ### Completion -/

section
variable (nowMillis : Nat)

theorem requeue_all (keys : List String) (cell : Cell) :
    let requeued := keys.foldl (fun cell key => cell.requeue nowMillis key) cell
    requeued.identity = cell.identity ∧ requeued.generation = cell.generation ∧ requeued.targets = cell.targets ∧
      requeued.targetGenerations = cell.targetGenerations := by
  induction keys generalizing cell with
  | nil => exact ⟨rfl,rfl,rfl,rfl⟩
  | cons key rest ih => exact ih _

theorem get_requeue_all (keys : List String) (cell : Cell) (component : String) :
    (keys.foldl (fun cell key => cell.requeue nowMillis key) cell).observations[component]? =
      if component ∈ keys then none else cell.observations[component]? := by
  induction keys generalizing cell with
  | nil => simp
  | cons key rest ih =>
    rw [List.foldl_cons,ih,requeue,BTreeMap.get_erase]
    by_cases later : component ∈ rest
    · simp [later]
    · by_cases here : key = component
      · simp [here]
      · simp [later,here,Ne.symm here]

theorem queued_requeue_all (keys : List String) (cell : Cell) (component : String) :
    (keys.foldl (fun cell key => cell.requeue nowMillis key) cell).queued component =
      cell.queued component + keys.count component := by
  induction keys generalizing cell with
  | nil => simp
  | cons key rest ih =>
    rw [List.foldl_cons,ih,List.count_cons]
    simp only [queued,requeue,Heap.count_push,beq_iff_eq]
    omega

/-- What a completion keeps of a cell. -/
structure Keeps (cell concluded : Cell) : Prop where
  identity : concluded.identity = cell.identity
  generation : concluded.generation = cell.generation
  targets : concluded.targets = cell.targets
  targetGenerations : concluded.targetGenerations = cell.targetGenerations

/-- An observation that a conclusion adds: reported, of a target the job still
    holds, at the time the job started. -/
def Reports (cell : Cell) (job : Job) (reported : Option (List Observation)) (component : String)
    (cached : CachedObservation) : Prop :=
  cell.holds job component ∧ ∃ observations, reported = some observations ∧
    ∃ target, cell.targets[component]? = some target ∧ cached.observation ∈ observations ∧
      cached.observation.component = component ∧ cached.runtimeDigest = target.runtimeDigest ∧
      cached.observedAtMillis = job.startedAtMillis

theorem record_ok {cell : Cell} {job : Job} {observation : Observation} {target : ScheduledTarget}
    (found : cell.targets[observation.component]? = some target) :
    cell.record job observation = .ok { cell with
      observations := cell.observations.insert observation.component
        ⟨observation,target.runtimeDigest,job.startedAtMillis⟩ } := by
  rw [record,index,found]
  rfl

/-- A conclusion of a job succeeds, puts each target the job still holds back once
    and keeps no observation of them but the reported ones. -/
theorem conclude_ok {cell : Cell} {job : Job} (reported : Option (List Observation))
    (known : ∀ component ∈ cell.targetGenerations, component ∈ cell.targets)
    (distinct : job.request.components.Nodup) :
    ∃ concluded, cell.conclude job reported nowMillis = .ok concluded ∧ Keeps cell concluded ∧
      (∀ component, concluded.queued component =
        cell.queued component + if component ∈ job.request.components ∧ cell.holds job component then 1 else 0) ∧
      ∀ component cached, concluded.observations[component]? = some cached →
        cell.observations[component]? = some cached ∧
            ¬ (component ∈ job.request.components ∧ cell.holds job component) ∨
          cell.Reports job reported component cached := by
  let requeued := (job.request.components.filter fun key => cell.holds job key).foldl
    (fun cell key => cell.requeue nowMillis key) cell
  obtain ⟨identity,generation,targets,numbers⟩ := requeue_all nowMillis
    (job.request.components.filter fun key => cell.holds job key) cell
  let kept : Cell → Prop := fun concluded => Keeps cell concluded ∧ concluded.due = requeued.due ∧
    ∀ component cached, concluded.observations[component]? = some cached →
      cell.observations[component]? = some cached ∧
          ¬ (component ∈ job.request.components ∧ cell.holds job component) ∨
        cell.Reports job reported component cached
  have first : kept requeued := by
    refine ⟨⟨identity,generation,targets,numbers⟩,rfl,fun component cached found => .inl ?_⟩
    rw [get_requeue_all] at found
    split at found
    · simp at found
    · rename_i other
      exact ⟨found,by simpa using other⟩
  have each : ∀ observation ∈ (reported.getD []).filter (fun observation => cell.holds job observation.component),
      ∀ concluded, kept concluded → ∃ next, concluded.record job observation = .ok next ∧ kept next := by
    intro observation member concluded ⟨frame,due,sound⟩
    obtain ⟨listed,holds⟩ := List.mem_filter.mp member
    have holds : cell.holds job observation.component := by simpa using holds
    obtain ⟨generation,here⟩ := BTreeMap.mem_iff.mp holds.1
    obtain ⟨target,found⟩ := BTreeMap.mem_iff.mp
      (known observation.component (BTreeMap.mem_of_get (holds.2.trans here)))
    refine ⟨_,record_ok (frame.targets ▸ found),⟨frame.identity,frame.generation,frame.targets,
      frame.targetGenerations⟩,due,fun component cached present => ?_⟩
    simp only [BTreeMap.get_insert] at present
    split at present
    · rename_i same
      subst same
      simp only [Option.some.injEq] at present
      subst present
      cases reported with
      | none => simp at listed
      | some observations => exact .inr ⟨holds,observations,rfl,target,found,by simpa using listed,rfl,rfl,rfl⟩
    · exact sound component cached present
  obtain ⟨concluded,called,frame,due,sound⟩ := foldlM_keeps each first
  refine ⟨concluded,called,frame,fun component => ?_,sound⟩
  have counts := queued_requeue_all nowMillis (job.request.components.filter fun key => cell.holds job key) cell component
  rw [(distinct.filter _).count] at counts
  rw [queued,due]
  simpa [queued] using counts
end

end Cell

/-! ### Responses -/

theorem answers_iff {targets : List Target} {seen : List String} {observations : List Observation} :
    answers targets seen observations ↔ (observations.map Observation.component).Nodup ∧
      ∀ observation ∈ observations, observation.component ∉ seen ∧ ∃ target ∈ targets,
        target.component = observation.component ∧ target.rolloutDigest = observation.rolloutDigest := by
  induction observations generalizing seen with
  | nil => simp [answers]
  | cons observation rest ih =>
    simp only [answers,ih,List.map_cons,List.nodup_cons,List.mem_map,List.mem_cons,forall_eq_or_imp,not_or]
    constructor
    · rintro ⟨new,known,distinct,others⟩
      refine ⟨⟨?_,distinct⟩,⟨new,known⟩,fun other member => ⟨(others other member).1.2,(others other member).2⟩⟩
      rintro ⟨other,member,same⟩
      exact (others other member).1.1 same
    · rintro ⟨⟨apart,distinct⟩,⟨new,known⟩,others⟩
      refine ⟨new,known,distinct,fun other member => ⟨⟨?_,(others other member).1⟩,(others other member).2⟩⟩
      exact fun same => apart ⟨other,member,same⟩

/-- A valid response observes each target of the batch once, under its rollout digest. -/
theorem validateResponse_ok {job : Job} {response : Response} {reported : List Observation}
    (valid : validateResponse job response = some reported) :
    (reported.map Observation.component).Perm job.request.components ∧
      ∀ observation ∈ reported, ∃ target ∈ job.request.targets,
        target.component = observation.component ∧ target.rolloutDigest = observation.rolloutDigest := by
  cases response with
  | rejected code => cases valid
  | complete protocolVersion instanceKey revisionDigest batchId observations =>
    simp only [validateResponse,Option.ite_none_right_eq_some,Option.some.injEq] at valid
    obtain ⟨⟨_,_,_,_,length,answered⟩,rfl⟩ := valid
    obtain ⟨apart,known⟩ := answers_iff.mp answered
    refine ⟨?_,fun observation member => (known observation member).2⟩
    have inside : observations.map Observation.component ⊆ job.request.components := by
      intro component member
      obtain ⟨observation,present,rfl⟩ := List.mem_map.mp member
      obtain ⟨_,target,there,same,_⟩ := known observation present
      exact same ▸ List.mem_map_of_mem there
    refine (List.subperm_of_subset apart inside).perm_of_length_le ?_
    simp [Request.components,length]
end Proofstorm.Prober
