import Proofstorm.Identities.Secrets

/-!
An identity is not created under existing data in the runs in which none is lost
behind the back of a pass: a pass that has read the claim as absent creates the
Secret without another look at the claim, so the claim must not come to stand
without its Secret while there is such a pass (`Guarded`). In those runs the Secret
of an existing claim is absent or has the value it had when the claim came into
existence (`identity_kept`); a pass that sees the claim without the Secret fails in
every run.
-/
namespace Proofstorm.Identities
open Proofstorm.Interleaving

variable {bip39 : Bip39}

abbrev History := Config Request Cluster Statement Failure Statement.Answer (Except Failure Unit)

abbrev Pass := Call Cluster Statement Failure Statement.Answer (Except Failure Unit)

def Binding.Claimed (binding : Binding) (cluster : Cluster) : Prop := claimName binding.component ∈ cluster.claims

/-- The claim exists without its Secret. -/
def Binding.Orphaned (binding : Binding) (cluster : Cluster) : Prop :=
  binding.Claimed cluster ∧ cluster.secrets binding.name = none

/-- The statement creates no Secret of this name. -/
def Spares (name : String) : Statement → Prop
  | .create secret => secret.name ≠ name
  | _ => True

/-- The pass can still come to create the Secret though every state that it reads
    from here has the claim and not the Secret. -/
def Binding.Overlooks (binding : Binding) (pass : Pass) : Prop :=
  ¬ pass.Within binding.Orphaned (fun statement _ => Spares binding.name statement) fun _ => True

/-- The step does not leave a claim without its Secret, or no pass in progress overlooks it. -/
def Guarded (config : History) (entry : Running Request Cluster Statement Failure Statement.Answer (Except Failure Unit)) : Prop :=
  ∀ statement next answer after, entry.code = .write statement next → execute statement config.state = .ok (answer,after) →
    ∀ binding : Binding, ¬ binding.Orphaned config.state → binding.Orphaned after →
      ∀ other ∈ config.pool, ¬ binding.Overlooks other.code

/-! ### Names -/

/-- A Secret belongs to one component. -/
theorem component_of_name {a b : Binding} (same : a.name = b.name) : a.component = b.component := by
  have chars : a.component.toList ++ a.role.suffix.toList = b.component.toList ++ b.role.suffix.toList := by
    simpa [Binding.name] using congrArg String.toList same
  obtain ⟨component_a,role_a⟩ := a
  obtain ⟨component_b,role_b⟩ := b
  -- The last five characters tell two suffixes apart.
  have shown : ∀ role : Role, ∃ before, role.suffix.toList = before ++ role.suffix.toList.drop (role.suffix.toList.length - 5) :=
    fun role => ⟨_,(List.take_append_drop _ _).symm⟩
  obtain ⟨before_a,left⟩ := shown role_a
  obtain ⟨before_b,right⟩ := shown role_b
  have last := chars
  simp only at last
  rw [left,right,← List.append_assoc,← List.append_assoc] at last
  have ends := List.append_inj_right' last (by cases role_a <;> cases role_b <;> decide)
  have suffix : role_a.suffix = role_b.suffix := by
    cases role_a <;> cases role_b <;> first | rfl | exact absurd ends (by decide)
  simp only [suffix] at chars
  exact String.toList_injective (List.append_cancel_right chars)

/-! ### What a pass keeps to -/

section
variable {fact : Cluster → Prop} {allowed : Statement → Prop} {template : Template} {draw : Draw}

variable {check : Secret → Except Failure Unit}

theorem keeps_ensureGeneratedSecretWith {generate : Except Failure Data}
    (creates : ∀ data, allowed (.create ⟨template.name,data⟩)) :
    Keeps fact allowed (ensureGeneratedSecretWith template generate check) fun _ => True := by
  rw [ensureGeneratedSecretWith]
  simp only [keeps_bind,keeps_query]
  intro cluster _ existing _
  cases existing with
  | some existing => exact fun _ _ => trivial
  | none =>
    simp only [keeps_bind,keeps_settle,keeps_attempt_submit]
    refine fun _ _ => ⟨creates _,fun answer => ?_⟩
    -- Whatever the server answers, nothing more is created.
    split <;> simp

theorem keeps_ensureIdentity (creates : ∀ data, allowed (.create ⟨template.name,data⟩)) :
    Keeps fact allowed (ensureIdentity template draw) fun _ => True := by
  rw [ensureIdentity]
  simp only [keeps_bind,keeps_settle,keeps_query]
  intro identity _ cluster _ existing _
  cases existing with
  | some existing => exact fun _ _ => trivial
  | none =>
    simp only [keeps_bind,keeps_settle,keeps_attempt_submit]
    refine fun _ _ => ⟨creates _,fun answer => ?_⟩
    split <;> simp

/-- The reads of the claim and of the Secret after it. What comes after them in the
    absence of the claim does not come where the claim is always there. -/
theorem keeps_guard {component name : String} {error : Failure} {create : Program Unit}
    (creates : Keeps fact allowed create (fun _ => True) ∨ ∀ cluster, fact cluster → claimName component ∈ cluster.claims) :
    Keeps fact allowed (do
      if ← query fun cluster => .ok (decide (claimName component ∈ cluster.claims)) then
        match ← query fun cluster => .ok (cluster.secrets name) with
        | some existing => settle (check existing)
        | none => throw error
      else create) fun _ => True := by
  simp only [keeps_bind,keeps_query]
  rintro cluster holds _ ⟨⟩
  by_cases claimed : claimName component ∈ cluster.claims
  · rw [if_pos (decide_eq_true claimed),keeps_bind,keeps_query]
    intro now _ existing _
    cases existing with
    | some existing => exact fun _ _ => trivial
    | none => exact keeps_throw
  · rw [if_neg (by simpa using claimed)]
    exact creates.resolve_right fun always => claimed (always cluster holds)

/-- A pass creates the Secret of an identity only where it has read the claim as absent. -/
theorem keeps_ensureSecret {binding : Binding}
    (creates : (∀ data, allowed (.create ⟨binding.name,data⟩)) ∨ ∀ cluster, fact cluster → binding.Claimed cluster) :
    Keeps fact allowed (ensureSecret bip39 binding.template draw) fun _ => True := by
  have own : ∀ {component : String}, binding.template.labels["proofstorm.dev/component"]? = some component →
      component = binding.component := by
    intro component label
    simpa [Binding.template] using label.symm
  rw [ensureSecret]
  split
  · split
    · rw [ensureOwnedIdentity]
      simp only [keeps_bind,keeps_settle,keeps_query]
      intro identity _ cluster _ existing _
      cases existing with
      | some existing => exact fun _ _ => trivial
      | none =>
        rw [keeps_bind,keeps_settle]
        intro component labelled
        rw [own (require_ok.mp labelled)]
        exact keeps_guard (creates.imp_left keeps_ensureGeneratedSecretWith)
    · split
      · rw [ensureBark]
        simp only [keeps_bind,keeps_settle]
        intro component labelled identity _
        rw [keeps_ite,own (require_ok.mp labelled)]
        refine ⟨fun _ => ?_,fun _ => keeps_throw⟩
        rw [keeps_bind,keeps_query]
        intro cluster _ existing _
        cases existing with
        | some existing => exact fun _ _ => trivial
        | none => exact keeps_guard (creates.imp_left keeps_ensureIdentity)
      · exact keeps_pure.mpr trivial
  · exact keeps_pure.mpr trivial

theorem keeps_apply {secrets : List (Binding × Draw)} {statefulSets : List String}
    (creates : ∀ binding : Binding,
      (∀ data, allowed (.create ⟨binding.name,data⟩)) ∨ ∀ cluster, fact cluster → binding.Claimed cluster)
    (applies : ∀ statefulSet, allowed (.apply statefulSet)) :
    Keeps fact allowed (apply bip39 secrets statefulSets) fun _ => True := by
  rw [apply,keeps_bind]
  exact keeps_mono (keeps_forM fun secret => keeps_ensureSecret (creates secret.1)) fun _ _ =>
    keeps_forM fun statefulSet => keeps_submit.mpr ⟨applies statefulSet,fun _ => trivial⟩
end

/-- A pass that finds the claim without the Secret at each of its reads does not create the Secret. -/
theorem code_notices (binding : Binding) (request : Request) : ¬ binding.Overlooks (code bip39 request) := by
  rw [Binding.Overlooks,not_not]
  cases request with
  | reconcile secrets statefulSets =>
    have keeps : Keeps binding.Orphaned (Spares binding.name) (apply bip39 secrets statefulSets) fun _ => True := by
      refine keeps_apply (fun other => ?_) fun _ => trivial
      by_cases same : other.name = binding.name
      · refine .inr fun cluster orphaned => ?_
        rw [Binding.Claimed,component_of_name same]
        exact orphaned.1
      · exact .inl fun _ => same
    exact keeps.mono (fun _ _ holds => holds) fun _ _ => trivial
  | delete name => exact ⟨trivial,fun _ => trivial⟩
  | provision statefulSet => exact ⟨trivial,fun _ => trivial⟩

/-! ### Runs -/

variable {statement : Statement} {binding : Binding} {config : History}

theorem spares_secret {cluster after : Cluster} {answer : statement.Answer} {name : String}
    (executed : execute statement cluster = .ok (answer,after)) (spares : Spares name statement) :
    after.secrets name = cluster.secrets name ∨ after.secrets name = none := by
  cases statement with
  | create secret =>
    simp only [execute,bind_ok,pure_ok] at executed
    obtain ⟨_,_,same⟩ := executed
    cases same
    exact .inl (Function.update_of_ne (Ne.symm spares) _ _)
  | delete other =>
    simp only [execute,bind_ok,pure_ok] at executed
    obtain ⟨_,_,same⟩ := executed
    cases same
    by_cases here : name = other
    · exact .inr (here ▸ Function.update_self ..)
    · exact .inl (Function.update_of_ne here _ _)
  | apply statefulSet =>
    cases executed
    exact .inl rfl
  | provision statefulSet =>
    simp only [execute,bind_ok,pure_ok] at executed
    obtain ⟨_,_,same⟩ := executed
    cases same
    exact .inl rfl

/-- A claim is never removed, and only what creates the Secret ends its absence. -/
theorem claimed_stays {cluster after : Cluster} {answer : statement.Answer}
    (executed : execute statement cluster = .ok (answer,after)) (claimed : binding.Claimed cluster) :
    binding.Claimed after := by
  cases statement with
  | apply statefulSet =>
    cases executed
    exact claimed
  | _ =>
    simp only [execute,bind_ok,pure_ok] at executed
    obtain ⟨_,_,same⟩ := executed
    cases same
    first | exact claimed | exact List.mem_cons_of_mem _ claimed

theorem orphaned_stays (binding : Binding) (statement : Statement) (cluster : Cluster) (answer : statement.Answer)
    (after : Cluster) (orphaned : binding.Orphaned cluster) (spares : Spares binding.name statement)
    (executed : execute statement cluster = .ok (answer,after)) : binding.Orphaned after := by
  refine ⟨claimed_stays executed orphaned.1,?_⟩
  rcases spares_secret executed spares with same | none
  · exact same.trans orphaned.2
  · exact none

abbrev GuardedRun (bip39 : Bip39) : History → Prop := Restricted execute .unavailable (code bip39) emptyCluster Guarded

/-- Where a claim stands without its Secret, no pass in progress comes to create it. -/
theorem GuardedRun.quiet (guarded : GuardedRun bip39 config) (binding : Binding)
    (orphaned : binding.Orphaned config.state) : Quiet binding.Orphaned (Spares binding.name) config := by
  induction guarded with
  | initial => exact absurd orphaned.1 (by simp [Binding.Claimed,emptyCluster])
  | start _ request ih => exact (ih orphaned).start (not_not.mp (code_notices binding request))
  | crash _ front back entry here ih => exact (ih orphaned).crash here
  | @perform config restricted front back entry here did after rest step allowed ih =>
    by_cases before : binding.Orphaned config.state
    · exact ((ih before).perform (orphaned_stays binding) here step _).1
    · cases did with
      | none =>
        have same : after = config.state := step.committed entry.request entry.since
        exact absurd (same ▸ orphaned) before
      | some statement =>
        obtain ⟨next,answer,writes,executed,rfl⟩ := step.of_did rfl
        have noticed := fun other member => not_not.mp (allowed statement next answer after writes executed binding before orphaned other member)
        refine Quiet.begin (fun other member => noticed other (here ▸ ?_)) orphaned ?_
        · rcases List.mem_append.mp member with member | member
          · exact List.mem_append_left _ member
          · exact List.mem_append_right _ (List.mem_cons_of_mem _ member)
        · have own := noticed entry (by simp [here])
          rw [writes] at own
          exact own.2 _

/-- Under an existing claim the Secret stays as it is or goes. -/
theorem GuardedRun.claimed (guarded : GuardedRun bip39 config) (binding : Binding) :
    Throughout (fun _ event => binding.Claimed event.before →
      binding.Claimed event.after ∧ (event.after.secrets binding.name = event.before.secrets binding.name ∨
        event.after.secrets binding.name = none)) config.log := by
  induction guarded with
  | initial => trivial
  | start _ request ih => exact ih
  | crash _ front back entry here ih => exact ih
  | @perform config restricted front back entry here did after rest step allowed ih =>
    refine ⟨fun claimed => ?_,ih⟩
    cases did with
    | none =>
      have same : after = config.state := step.committed entry.request entry.since
      subst same
      exact ⟨claimed,.inl rfl⟩
    | some statement =>
      obtain ⟨next,answer,writes,executed,rfl⟩ := step.of_did rfl
      refine ⟨claimed_stays executed claimed,?_⟩
      by_cases absent : config.state.secrets binding.name = none
      · have quiet := GuardedRun.quiet restricted binding ⟨claimed,absent⟩
        exact spares_secret executed ((quiet.perform (orphaned_stays binding) here step []).2 statement rfl)
      · refine spares_secret executed ?_
        -- A create is refused where the name exists.
        cases statement with
        | create secret =>
          simp only [execute,bind_ok,ensure_ok,pure_ok] at executed
          obtain ⟨_,free,_⟩ := executed
          exact fun same => absent (same ▸ free)
        | _ => trivial

/-- The Secret is absent or has the value that it had when the claim came into existence. -/
def Binding.Kept (binding : Binding) (config : History) : Prop :=
  ∀ event ∈ config.log, ¬ binding.Claimed event.before → binding.Claimed event.after →
    config.state.secrets binding.name = none ∨
      config.state.secrets binding.name = event.after.secrets binding.name

theorem kept_along {state : Cluster} {log : List (Event Request Cluster Statement (Except Failure Unit))}
    (linked : Linked emptyCluster log state)
    (steps : Throughout (fun _ event => binding.Claimed event.before →
      binding.Claimed event.after ∧ (event.after.secrets binding.name = event.before.secrets binding.name ∨
        event.after.secrets binding.name = none)) log) :
    (∀ event ∈ log, binding.Claimed event.after → binding.Claimed state ∧ (state.secrets binding.name = none ∨
      state.secrets binding.name = event.after.secrets binding.name)) := by
  induction log generalizing state with
  | nil => nofun
  | cons last older ih =>
    obtain ⟨rfl,linked⟩ := linked
    intro event member claimed
    rcases List.mem_cons.mp member with rfl | member
    · exact ⟨claimed,.inr rfl⟩
    · obtain ⟨before,same⟩ := ih linked steps.2 event member claimed
      obtain ⟨after,moved⟩ := steps.1 before
      refine ⟨after,?_⟩
      rcases moved with still | gone
      · rw [still]
        exact same
      · exact .inl gone

/-- What is left of a call when it has read these states. -/
def feed : List Cluster → Pass → Pass
  | state :: states, .read next => feed states (next state)
  | _, pass => pass

section
variable {binding : Binding}

@[simp] theorem template_name : binding.template.name = binding.name := rfl

@[simp] theorem template_component : binding.template.labels["proofstorm.dev/component"]? = some binding.component := by
  simp [Binding.template]

@[simp] theorem template_kind :
    (binding.template.stringData.bind fun data => data["PROOFSTORM_SECRET_KIND"]?) = some binding.role.kind := by
  cases role : binding.role <;> simp only [Binding.template,role,Option.bind_some,BTreeMap.get_insert] <;> simp

/-- The reads of the claim and of the Secret after it, where they find the one without the other. -/
theorem feed_guard {check : Secret → Except Failure Unit} {message : String} {create : Program Unit}
    (rest : Unit → Program Unit) {second third : Cluster} (claimed : binding.Claimed second)
    (still : third.secrets binding.name = none) :
    feed [second,third] ((do
      if ← query fun cluster => .ok (decide (claimName binding.component ∈ cluster.claims)) then
        match ← query fun cluster => .ok (cluster.secrets binding.name) with
        | some existing => settle (check existing)
        | none => throw (.secretContract message)
      else create) >>= rest).run = .done (.error (.secretContract message)) := by
  have there : decide (claimName binding.component ∈ second.claims) = true := decide_eq_true claimed
  simp only [bind_assoc,query_bind,proceed_ok,feed,there,if_true,still]
  rfl

theorem feed_owned {identity : Identity} (owned : Identities.identity binding.role.kind = some identity) (draw : Draw)
    (rest : Unit → Program Unit) {first second third : Cluster} (missing : first.secrets binding.name = none)
    (claimed : binding.Claimed second) (still : third.secrets binding.name = none) :
    ∃ message, feed [first,second,third] (ensureOwnedIdentity bip39 binding.template draw >>= rest).run =
      .done (.error (.secretContract message)) := by
  rw [ensureOwnedIdentity]
  simp only [template_kind,template_name,componentName,template_component,Option.bind_some,owned,require_some,bind_assoc,
    settle_bind,query_bind,proceed_ok,feed,missing]
  exact ⟨_,feed_guard rest claimed still⟩

theorem feed_bark (tls : binding.role.kind ∈ ["bark-cln-tls","bark-hold-tls"])
    (identity : templateIdentity binding.template = .ok (binding.role.kind,some binding.component)) (draw : Draw)
    (rest : Unit → Program Unit) {first second third : Cluster} (missing : first.secrets binding.name = none)
    (claimed : binding.Claimed second) (still : third.secrets binding.name = none) :
    ∃ message, feed [first,second,third] (ensureBark binding.template draw >>= rest).run =
      .done (.error (.secretContract message)) := by
  rw [ensureBark]
  simp only [template_name,template_component,identity,require_some,bind_assoc,settle_bind,proceed_ok,if_pos tls,
    query_bind,feed,missing]
  exact ⟨_,feed_guard rest claimed still⟩
end

/-- A pass that sees the claim without the Secret ends with an error and creates nothing. -/
theorem refuses_orphan (binding : Binding) (draw : Draw) (rest : Unit → Program Unit) {first second third : Cluster}
    (missing : first.secrets binding.name = none) (claimed : binding.Claimed second)
    (still : third.secrets binding.name = none) :
    ∃ message, feed [first,second,third] (ensureSecret bip39 binding.template draw >>= rest).run =
      .done (.error (.secretContract message)) := by
  rw [ensureSecret]
  simp only [template_kind]
  have tls : ∀ role, binding.role = role → role = .cln ∨ role = .hold →
      templateIdentity binding.template = .ok (binding.role.kind,some binding.component) := by
    rintro role here (rfl | rfl) <;>
      simp [templateIdentity,Binding.template,here,Std.ExtTreeMap.getD_insert,Role.kind,ensure]
  cases role : binding.role with
  | barkProcessor | openSsp | sparkProcessor =>
    rw [if_pos (by decide)]
    exact feed_owned (by rw [role]; rfl) draw rest missing claimed still
  | cln =>
    rw [if_neg (by decide),if_pos (by decide)]
    exact feed_bark (by rw [role]; decide) (tls _ role (.inl rfl)) draw rest missing claimed still
  | hold =>
    rw [if_neg (by decide),if_pos (by decide)]
    exact feed_bark (by rw [role]; decide) (tls _ role (.inr rfl)) draw rest missing claimed still

/-- In a run in which no claim comes to stand without its Secret while a pass
    overlooks it, the Secret of an existing claim is absent or has the value it had
    when the claim came into existence. A pass that sees the claim without the
    Secret ends with an error and creates nothing. -/
theorem identity_kept {config : History} (guarded : GuardedRun bip39 config) :
    (∀ binding : Binding, binding.Kept config) ∧
      ∀ (binding : Binding) (draw : Draw) (rest : Unit → Program Unit) (first second third : Cluster),
        first.secrets binding.name = none → binding.Claimed second → third.secrets binding.name = none →
          ∃ message, feed [first,second,third] (ensureSecret bip39 binding.template draw >>= rest).run =
            .done (.error (.secretContract message)) := by
  refine ⟨fun binding event member _ claimed => ?_,fun binding draw rest first second third => refuses_orphan binding draw rest⟩
  exact (kept_along guarded.reachable.linked (GuardedRun.claimed guarded binding) event member claimed).2

/-! ### Passes one after the other -/

theorem orphaned_before {cluster after : Cluster} {answer : statement.Answer}
    (executed : execute statement cluster = .ok (answer,after))
    (passes : (∃ secret, statement = .create secret) ∨ ∃ statefulSet, statement = .apply statefulSet)
    (orphaned : binding.Orphaned after) : binding.Orphaned cluster := by
  rcases passes with ⟨secret,rfl⟩ | ⟨statefulSet,rfl⟩
  · simp only [execute,bind_ok,ensure_ok,pure_ok] at executed
    obtain ⟨_,free,same⟩ := executed
    cases same
    obtain ⟨claimed,absent⟩ := orphaned
    have other : binding.name ≠ secret.name := by
      intro same
      rw [same] at absent
      cases (Function.update_self secret.name (some secret) cluster.secrets).symm.trans absent
    exact ⟨claimed,(Function.update_of_ne other _ _).symm.trans absent⟩
  · cases executed
    exact orphaned

/-- A statement that can leave a claim without its Secret is the last of its call. -/
theorem code_last (request : Request) :
    (code bip39 request).Within (fun _ => True) (fun statement next =>
      ((∃ secret, statement = .create secret) ∨ ∃ statefulSet, statement = .apply statefulSet) ∨
        ∀ answer, ∃ result, next answer = .done result) fun _ => True := by
  cases request with
  | reconcile secrets statefulSets =>
    have keeps : Keeps (fun _ => True)
        (fun statement => (∃ secret, statement = .create secret) ∨ ∃ statefulSet, statement = .apply statefulSet)
        (apply bip39 secrets statefulSets) fun _ => True :=
      keeps_apply (fun _ => .inl fun _ => .inl ⟨_,rfl⟩) fun _ => .inr ⟨_,rfl⟩
    exact keeps.mono (fun _ _ passes => .inl passes) fun _ _ => trivial
  | delete name => exact ⟨.inr fun _ => ⟨_,rfl⟩,fun _ => trivial⟩
  | provision statefulSet => exact ⟨.inr fun _ => ⟨_,rfl⟩,fun _ => trivial⟩

/-- What is alone overlooks nothing. -/
theorem guarded_alone (reached : Reachable execute .unavailable (code bip39) emptyCluster config)
    {entry : Running Request Cluster Statement Failure Statement.Answer (Except Failure Unit)}
    (alone : config.pool = [entry]) : Guarded config entry := by
  obtain ⟨_,pool,_⟩ := reached.invariant (fun _ => True) (fun _ _ => True) _ (fun _ _ => True)
    (throughout_iff.mpr fun _ _ _ _ _ _ => trivial) trivial code_last fun _ _ _ _ _ _ _ _ _ _ => trivial
  intro statement next answer after writes executed binding before orphaned other member
  have own := pool entry (by simp [alone])
  rw [writes] at own
  rcases own.1 with passes | last
  · exact absurd (orphaned_before executed passes orphaned) before
  · obtain rfl : other = entry := by simpa [alone] using member
    rw [Binding.Overlooks,not_not,writes]
    refine ⟨?_,fun answer => ?_⟩
    · cases statement with
      | create secret => exact absurd (orphaned_before executed (.inl ⟨secret,rfl⟩) orphaned) before
      | _ => trivial
    · obtain ⟨result,done⟩ := last answer
      rw [done]
      trivial

def abandon : String := "abandon abandon abandon abandon abandon abandon abandon abandon abandon abandon abandon about"
def zoo : String := "zoo zoo zoo zoo zoo zoo zoo zoo zoo zoo zoo wrong"

/-- The mnemonics of two entropies. -/
def sampleBip39 : Bip39 where
  fromEntropy bytes :=
    if bytes = List.replicate 16 0 then some abandon else if bytes = List.replicate 16 255 then some zoo else none
  parses text := text = abandon ∨ text = zoo

def sampleWallet : Binding := ⟨"wallet",.barkProcessor⟩

def sampleDraw (byte : UInt8) : Draw := ⟨.ok (List.replicate 16 byte),.error "unused",.error "unused"⟩

def samplePass (byte : UInt8) : Request := .reconcile [(sampleWallet,sampleDraw byte)] ["wallet"]

def sampleSeed (cluster : Cluster) : Option String :=
  (cluster.secrets sampleWallet.name).bind fun secret => secret.data.bind fun data => data["mnemonic"]?

/-- The claim is made after a pass, and its Secret is deleted before the next one. -/
def sampleRuns : List (Request × Nat) :=
  [(samplePass 0,5),(.provision "wallet",1),(.delete sampleWallet.name,1),(samplePass 255,3)]

def sampleHistory : History := Config.inTurn execute (code sampleBip39) sampleRuns ⟨emptyCluster,[],[]⟩

theorem sampleHistory_guarded : GuardedRun sampleBip39 sampleHistory := by
  have single : Config.checked execute (code sampleBip39) (fun _ => true) sampleRuns ⟨emptyCluster,[],[]⟩ = true := by
    decide +kernel
  exact Restricted.inTurn (fun _ _ guarded _ alone => guarded_alone guarded.reachable alone) sampleRuns .initial single

/-- The second pass draws another seed and does not use it. -/
theorem identity_kept_deleted : sampleWallet.Kept sampleHistory ∧ sampleSeed sampleHistory.state = none ∧
    sampleHistory.log.map (fun event => sampleSeed event.after) =
      [none,none,none,none,some abandon,some abandon,some abandon,none,none,none] :=
  ⟨(identity_kept sampleHistory_guarded).1 sampleWallet,by decide +kernel,by decide +kernel⟩

/-- A pass has read the claim as absent; another pass creates the Secret, the claim
    is made, the Secret is deleted, and the first pass creates it again. -/
def sampleRace : History :=
  play execute (code sampleBip39) emptyCluster
    [.start (samplePass 0),.perform 0,.perform 0,.perform 0,.start (samplePass 255),.finish 0,
      .start (.provision "wallet"),.finish 0,.start (.delete sampleWallet.name),.finish 0,.finish 0]

theorem seed_regenerated : ¬ ∀ (bip39 : Bip39) (config : History),
    Reachable execute .unavailable (code bip39) emptyCluster config → ∀ binding : Binding, binding.Kept config := by
  intro kept
  have race : ∃ event ∈ sampleRace.log, claimName "wallet" ∉ event.before.claims ∧ claimName "wallet" ∈ event.after.claims ∧
      sampleSeed event.after = some zoo := by decide +kernel
  obtain ⟨event,member,unclaimed,claimed,first⟩ := race
  have now : sampleSeed sampleRace.state = some abandon := by decide +kernel
  rcases kept sampleBip39 sampleRace (Reachable.play _) sampleWallet event member unclaimed claimed with gone | same
  · rw [sampleSeed,gone] at now
    exact nomatch now
  · rw [sampleSeed,same] at now
    rw [sampleSeed] at first
    exact absurd (now.symm.trans first) (by decide)
end Proofstorm.Identities
