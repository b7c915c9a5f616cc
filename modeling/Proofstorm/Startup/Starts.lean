import Proofstorm.Startup.Grounds

/-!
One lemma for each function of a start: what it has done or seen of the volume
when it returns (`program_grounded` of each command).
-/
namespace Proofstorm.Startup
open Proofstorm.Upload (Bytes Hash)
open Proofstorm.Interleaving
open Proofstorm.Core (Json)

section
variable [Hash] [Bip39] {request : Request} {deeds : Deeds}

/-! ### Reading -/

theorem context_grounded (message : String) {operation : Operation} (outside : operation.enters = false)
    (may : Allows request deeds operation) : (context message operation).run.Grounded (Allows request)
      (Ends deeds fun now answer => Did now operation answer) deeds := by
  unfold context
  exact ends_try outside may (fun answer => ends_value List.mem_cons_self) fun error => ends_throw _

theorem readBounded_grounded (path : Path) (limit : Nat) : (readBounded path limit).run.Grounded (Allows request)
    (Ends deeds fun now bytes => bytes.length ≤ limit ∧ Did now (.read path limit) (some bytes)) deeds := by
  unfold readBounded
  refine ends_bind (context_grounded _ rfl (.looks rfl rfl)) fun now bytes _ read => ?_
  refine ends_settled fun value taken => ?_
  obtain ⟨_,regular,rest⟩ := bind_ok.mp taken
  obtain ⟨_,within,last⟩ := bind_ok.mp rest
  obtain rfl := pure_ok.mp last
  exact ⟨ensure_ok.mp within,require_ok.mp regular ▸ read⟩

theorem regular_grounded (path : Path) : (regular path).run.Grounded (Allows request)
    (Ends deeds fun now bytes => Found now path bytes ∧ Did now (.read path 65536) (some bytes)) deeds := by
  unfold regular
  refine ends_bind (context_grounded _ rfl (.looks rfl rfl)) fun now metadata _ looked => ?_
  refine ends_settle fun _ file => ?_
  refine ends_mono (readBounded_grounded path 65536) fun later bytes extends_ read => ?_
  exact ⟨⟨⟨metadata,(ensure_ok.mp file).1,extends_.subset looked⟩,65536,read⟩,read.2⟩

theorem mnemonic_grounded : (mnemonic [serverData,"mnemonic"]).run.Grounded (Allows request)
    (Ends deeds fun now seed => ReadsSeed now seed) deeds := by
  unfold mnemonic
  exact ends_bind (readBounded_grounded _ 512) fun now bytes _ read => ends_settled fun seed parsed => ⟨bytes,read.2,parsed⟩

theorem database_grounded (path : Path) (missing incomplete : String) : (database path missing incomplete).run.Grounded
    (Allows request) (Ends deeds fun now _ => Present now path) deeds := by
  unfold database
  refine ends_bind (context_grounded _ rfl (.looks rfl rfl)) fun now metadata _ looked => ?_
  refine ends_settled fun _ holds => ?_
  have file := ensure_ok.mp holds
  exact ⟨metadata,file.1,file.2,looked⟩

theorem freshEntries_grounded (entries : List (String × Bool)) : (freshEntries entries).run.Grounded (Allows request)
    (Ends deeds fun now _ => ∀ entry ∈ entries, entry.1 = lostAndFound ∧ entry.2 = true ∧
      Did now (.readDir [lostAndFound]) ([] : List (String × Bool))) deeds := by
  induction entries generalizing deeds with
  | nil => exact ends_value (by simp)
  | cons entry rest ih =>
    obtain ⟨name,isDir⟩ := entry
    unfold freshEntries
    refine ends_settle fun _ expected => ?_
    obtain ⟨rfl,directory⟩ := ensure_ok.mp expected
    refine ends_submit rfl (.looks rfl rfl) fun (below : List (String × Bool)) => ends_settle fun _ empty => ?_
    obtain rfl := ensure_ok.mp empty
    refine ends_mono ih fun now _ extends_ others entry member => ?_
    rcases List.mem_cons.mp member with rfl | member
    · exact ⟨rfl,directory,extends_.subset List.mem_cons_self⟩
    · exact others entry member

theorem fresh_grounded : fresh.run.Grounded (Allows request) (Ends deeds fun now _ => Bare now) deeds := by
  unfold fresh
  refine ends_submit rfl (.looks rfl rfl) fun metadata => ends_settle fun _ _ => ?_
  refine ends_submit rfl (.looks rfl rfl) fun listing => ?_
  refine ends_mono (freshEntries_grounded listing) fun now _ extends_ each => ?_
  exact ⟨listing,extends_.subset List.mem_cons_self,each⟩

/-! ### Writing -/

/-- An operation that changes the volume, where it may. -/
theorem Allows.change {operation : Operation} (outside : operation.enters = false) (spares : operation.Spares)
    (may : MayChange request deeds)
    (bound : ∀ drawn contents name, operation = .persistNoclobber [] drawn contents name → Bound request deeds name contents) :
    Allows request deeds operation :=
  ⟨fun _ => ⟨spares,may⟩,bound,fun enters => by rw [outside] at enters; cases enters⟩

theorem fill_grounded {dir : Path} (drawn : String) {name : String} {contents : Bytes} (may : MayChange request deeds)
    (spares : (dir ++ [name]).head? ≠ some lostAndFound ∧ dir.head? ≠ some lostAndFound)
    (bound : dir = [] → Bound request deeds name contents) :
    (fill dir drawn contents name false).run.Grounded (Allows request)
      (Ends deeds fun now _ => Did now (.persistNoclobber dir drawn contents name) ()) deeds := by
  unfold fill
  refine ends_submit rfl (.change rfl spares.2 may nofun) fun written => ?_
  refine ends_submit rfl (.looks rfl rfl) fun synced => ?_
  have subset : deeds ⊆ .did (.syncTemp dir drawn) synced :: .did (.writeTemp dir drawn contents) written :: deeds :=
    fun _ member => List.mem_cons_of_mem _ (List.mem_cons_of_mem _ member)
  refine ends_mono (context_grounded _ rfl (.change rfl spares (may.later subset) ?_)) fun now _ _ did => did
  rintro _ _ _ ⟨⟩
  exact (bound rfl).later subset

theorem writeIn_grounded (dir : Path) {name : String} {contents : Bytes} (may : MayChange request deeds)
    (spares : (dir ++ [name]).head? ≠ some lostAndFound ∧ dir.head? ≠ some lostAndFound)
    (bound : dir = [] → Bound request deeds name contents) :
    (writeIn dir name contents false).run.Grounded (Allows request)
      (Ends deeds fun now _ => ∃ drawn, Did now (.persistNoclobber dir drawn contents name) ()) deeds := by
  unfold writeIn
  refine ends_submit rfl (.change rfl spares.2 may nofun) fun drawn => ?_
  have made : Extends deeds (.did (.createTemp dir) drawn :: deeds) := .did _ rfl
  refine .afterAttempt (fill_grounded drawn (may.later made.subset) spares fun root => (bound root).later made.subset) ?_
  intro now outcome ends
  cases outcome with
  | ok _ =>
    have did := ends.value _ rfl
    have closed : (exec (.syncDir dir)).run.Grounded (Allows request)
        (Ends now fun later _ => ∃ drawn, Did later (.persistNoclobber dir drawn contents name) ()) now :=
      ends_last rfl (.looks rfl rfl) fun _ => ⟨drawn,List.mem_cons_of_mem _ did⟩
    exact closed.mono fun _ _ later => later.from ends.extends_
  | error error =>
    have may := may.later (made.trans ends.extends_).subset
    have dropped : (attempt (exec (.removeTemp dir drawn)) >>= fun _ => throw error : Program Unit).run.Grounded (Allows request)
        (Ends now fun later _ => ∃ drawn, Did later (.persistNoclobber dir drawn contents name) ()) now :=
      ends_try rfl (.change rfl spares.2 may nofun) (fun _ => ends_throw error) fun _ => ends_throw error
    exact dropped.mono fun _ _ later => later.from ends.extends_

theorem write_marker_grounded {marker : String} {contents : Bytes} (may : MayChange request deeds)
    (bound : Bound request deeds marker contents) (named : marker ≠ lostAndFound) :
    (write [marker] contents false).run.Grounded (Allows request) (Ends deeds fun now _ => Wrote now marker contents) deeds :=
  writeIn_grounded [] may ⟨by simpa using named,nofun⟩ fun _ => bound

theorem createDirAll_grounded {paths : List Path} (may : MayChange request deeds)
    (outside : ∀ path ∈ paths, path.head? ≠ some lostAndFound) :
    (createDirAll paths).run.Grounded (Allows request) (Ends deeds fun _ _ => True) deeds := by
  have existing : ∀ (path : Path) (error : Failure) (now : Deeds),
      (createDirAll.existing path error).run.Grounded (Allows request) (Ends now fun _ _ => True) now := by
    intro path error now
    unfold createDirAll.existing
    exact ends_submit rfl (.looks rfl rfl) fun there => ends_settled fun _ _ => trivial
  induction paths generalizing deeds with
  | nil => exact ends_throw _
  | cons path parents ih =>
    have here := outside path List.mem_cons_self
    have change : ∀ now, deeds ⊆ now → Allows request now (.createDir path) := fun now subset =>
      .change rfl here (may.later subset) nofun
    have last : ∀ now, deeds ⊆ now →
        (createDirAll.lastDir path).run.Grounded (Allows request) (Ends now fun _ _ => True) now := by
      intro now subset
      unfold createDirAll.lastDir
      exact ends_try rfl (change now subset) (fun _ => ends_value trivial) fun error => existing path error _
    unfold createDirAll
    refine ends_try rfl (change deeds (List.Subset.refl _)) (fun _ => ends_value trivial) fun error => ?_
    cases error with
    | notFound =>
      have failed : Extends deeds (.failed (.createDir path) :: deeds) := .failed _
      refine ends_bind (ih (may.later failed.subset) fun other member =>
        outside other (List.mem_cons_of_mem _ member)) fun now _ extends_ _ => ?_
      exact last now (failed.trans extends_).subset
    | io => exact existing path _ _
    | refused message => exact existing path _ _

/-! ### Entering a native program -/

theorem entering_grounded (message : String) {operation : Operation} (still : operation.changes = false)
    (start : request.checks = false) (calm : Calm deeds) (ready : Begun request deeds ∨ Intact request deeds) : (context message operation).run.Grounded (Allows request)
      (fun now outcome => ∀ answer, outcome = .ok answer → deeds ⊆ now) deeds := by
  have may : Allows request deeds operation := by
    refine ⟨fun changes => absurd changes (by simp [still]),?_,fun _ => ⟨start,calm,ready⟩⟩
    rintro _ _ _ rfl
    cases still
  unfold context
  rw [attempt_submit_bind]
  exact ⟨may,fun answer _ _ => List.subset_cons_self _ _,fun error => nofun⟩

/-! ### Bark server -/

theorem serverIdentity_grounded (text : String) : (serverIdentity text).run.Grounded (Allows request)
    (Ends deeds fun now identity => ∃ seed, ReadsSeed now seed ∧
      identity = Hash.sha256 (utf8 (text ++ "\n" ++ seed))) deeds := by
  unfold serverIdentity
  refine ends_submit rfl (.looks rfl rfl) fun metadata => ends_settle fun _ _ => ?_
  refine ends_bind (regular_grounded _) fun now _ _ _ => ?_
  exact ends_bind mnemonic_grounded fun later seed _ reads => ends_value ⟨seed,reads,rfl⟩

section
variable {around : Surroundings} {text : String}

theorem verifyServer_grounded (isServer : request = .prepareServer around ∨ request = .execServer around)
    (given : serverContext around = .ok text) :
    (verifyServer text).run.Grounded (Allows request) (Ends deeds fun now _ => Intact request now) deeds := by
  unfold verifyServer
  refine ends_submit rfl (.looks rfl rfl) fun metadata => ends_settle fun _ _ => ?_
  refine ends_bind (regular_grounded _) fun first started _ found => ends_settle fun _ same => ?_
  obtain rfl := ensure_ok.mp same
  refine ends_bind (regular_grounded _) fun second bound more sealed => ?_
  refine ends_bind (serverIdentity_grounded text) fun last identity extends_ read => ends_settled fun _ same => ?_
  obtain ⟨seed,reads,rfl⟩ := read
  obtain rfl := ensure_ok.mp same
  have started := found.1.later (more.trans extends_).subset
  have whole : ∀ marker ∈ [serverStarted,server], ∃ contents, Found last [marker] contents ∧
      ServerBound around last marker contents := by
    intro marker member
    simp only [List.mem_cons,List.not_mem_nil,or_false] at member
    obtain rfl | rfl := member
    · exact ⟨_,started,text,given,.inl ⟨rfl,rfl⟩⟩
    · exact ⟨_,sealed.1.later extends_.subset,text,given,.inr ⟨rfl,.inl started,seed,reads,rfl⟩⟩
  obtain rfl | rfl := isServer
  · exact ⟨whole,trivial⟩
  · exact ⟨whole,trivial⟩

theorem createServer_grounded (given : serverContext around = .ok text) (calm : Calm deeds) :
    (createServer text).run.Grounded (Allows (.prepareServer around))
      (fun now outcome => ∀ u, outcome = .ok u → Begun (.prepareServer around) now) deeds := by
  unfold createServer
  refine .andThen fresh_grounded (fun _ _ _ => nofun) fun now _ seen => ?_
  have bare := seen.value _ rfl
  refine .andThen (write_marker_grounded (.inl ⟨bare,rfl⟩) ⟨text,given,.inl ⟨rfl,rfl⟩⟩ (by decide)) (fun _ _ _ => nofun) ?_
  intro marked _ written
  have begun : Begun (.prepareServer around) marked := ⟨bare.later written.extends_.subset,_,written.value _ rfl⟩
  refine .afterSubmit (fun _ => nofun) (.change rfl (by simp [Operation.Spares,serverData,lostAndFound]) (.inl ⟨begun.1,rfl⟩) nofun) fun made => ?_
  have subset : marked ⊆ .did (.createDir [serverData]) made :: marked := List.subset_cons_self _ _
  have created : Begun (.prepareServer around) (.did (.createDir [serverData]) made :: marked) :=
    ⟨begun.1.later subset,begun.2.imp fun _ wrote => wrote.later subset⟩
  have making : Extends marked (.did (.createDir [serverData]) made :: marked) := .did made rfl
  have calm := making.calm (written.extends_.calm (seen.extends_.calm calm))
  have entering : initializeServer.run.Grounded (Allows (.prepareServer around))
      (fun now outcome => ∀ u, outcome = .ok u → .did (.createDir [serverData]) made :: marked ⊆ now)
      (.did (.createDir [serverData]) made :: marked) := by
    unfold initializeServer
    refine .andThen (entering_grounded _ rfl rfl calm (.inl created)) (fun _ _ _ => nofun) fun now success entered => ?_
    exact fun _ _ => entered _ rfl
  refine .andThen entering (fun _ _ _ => nofun) fun entered _ more => ?_
  refine .andThen (serverIdentity_grounded text) (fun _ _ _ => nofun) fun identified identity ends => ?_
  obtain ⟨seed,reads,rfl⟩ := ends.value _ rfl
  have subset := List.Subset.trans (List.Subset.trans subset (more _ rfl)) ends.extends_.subset
  have bound : Bound (.prepareServer around) identified server (utf8 (Hash.sha256 (utf8 (text ++ "\n" ++ seed)))) :=
    ⟨text,given,.inr ⟨rfl,.inr ((written.value _ rfl).later subset),seed,reads,rfl⟩⟩
  refine .andThen (write_marker_grounded (.inl ⟨begun.1.later subset,rfl⟩) bound (by decide)) (fun _ _ _ => nofun) ?_
  intro last _ sealed
  have subset := List.Subset.trans subset sealed.extends_.subset
  refine ⟨.looks rfl rfl,fun answer _ _ => ?_,fun _ => nofun⟩
  have subset := List.subset_cons_of_subset (Deed.did .writeCreated answer) subset
  exact ⟨begun.1.later subset,begun.2.imp fun _ wrote => wrote.later subset⟩

theorem prepareServer_grounded : (prepareServer around).run.Grounded (Allows (.prepareServer around))
    (fun now outcome => ∀ u, outcome = .ok u → Settled (.prepareServer around) now) [] := by
  unfold prepareServer
  refine .afterSettle (fun _ => nofun) fun text given => ?_
  unfold prepareServerWith
  refine .afterSubmit (fun _ => nofun) (.looks rfl rfl) fun (started : Bool) => ?_
  have looked := @Extends.did [] (.tryExists [serverStarted]) started rfl
  have calm := looked.calm (by simp [Calm])
  cases started with
  | true => exact (verifyServer_grounded (.inl rfl) given).mono fun _ _ ends u same => .inr (ends.value u same)
  | false => exact (createServer_grounded given calm).mono fun _ _ ends u same => .inl (ends u same)

theorem execServer_grounded : (execServer around).run.Grounded (Allows (.execServer around))
    (fun now outcome => ∀ u, outcome = .ok u → Settled (.execServer around) now) [] := by
  unfold execServer
  refine .afterSettle (fun _ => nofun) fun text given => ?_
  refine .andThen (verifyServer_grounded (.inr rfl) given) (fun _ _ _ => nofun) fun now _ ends => ?_
  have intact := ends.value _ rfl
  refine (entering_grounded _ rfl rfl (ends.extends_.calm (by simp [Calm])) (.inr intact)).mono fun last outcome entered u same => ?_
  exact .inr (intact.later (entered u same))
end

/-! ### CLN and hold -/

theorem clnIdentity_grounded : clnIdentity.run.Grounded (Allows request)
    (Ends deeds fun now identity => (∃ hsm, ReadsHsm now hsm ∧ identity = Hash.sha256 hsm) ∧
      ∀ file ∈ [["regtest","lightningd.sqlite3"],["regtest","hold","hold.sqlite3"]], Present now file) deeds := by
  unfold clnIdentity
  refine ends_bind (regular_grounded _) fun now hsm _ read => ends_settle fun _ _ => ?_
  refine ends_bind (ends_forM (fun file now => Present now file) (fun _ _ _ extends_ present => present.later extends_.subset)
    fun file _ later _ => database_grounded file _ _) fun later _ extends_ files => ?_
  exact ends_value ⟨⟨hsm,extends_.subset read.2,rfl⟩,files⟩

section
variable {around : Surroundings} {material : Material}

/-- The last loop of `verifyCln`. -/
theorem nativeTls_grounded (material : Material) : (material.forM fun entry => do
      let bytes ← regular (nativeTlsPath entry.1)
      settle (ensure (bytes = entry.2) (.refused "CLN/hold native TLS identity missing or changed")) : Program Unit).run.Grounded
    (Allows request) (Ends deeds fun now _ => ∀ entry ∈ material, Found now (nativeTlsPath entry.1) entry.2) deeds := by
  refine ends_forM (fun (entry : String × Bytes) now => Found now (nativeTlsPath entry.1) entry.2) ?_ ?_
  · exact fun entry now later extends_ found => found.later extends_.subset
  · intro entry _ now _
    refine ends_bind (regular_grounded _) fun later bytes _ found => ends_settled fun _ same => ?_
    obtain rfl := ensure_ok.mp same
    exact found.1

theorem verifyCln_grounded (given : tlsMaterial around = .ok material) : (verifyCln material).run.Grounded
    (Allows (.execClnHold around)) (Ends deeds fun now _ => Intact (.execClnHold around) now) deeds := by
  unfold verifyCln
  refine ends_bind (ends_forM (fun _ _ => True) (fun _ _ _ _ _ => trivial) fun dir _ now _ =>
    ends_submit rfl (.looks rfl rfl) fun metadata => ends_settled fun _ _ => trivial) fun first _ _ _ => ?_
  refine ends_bind (regular_grounded _) fun second started _ found => ends_settle fun _ same => ?_
  obtain rfl := ensure_ok.mp same
  refine ends_bind (regular_grounded _) fun third bound more sealed => ?_
  refine ends_bind clnIdentity_grounded fun fourth identity further read => ends_settle fun _ same => ?_
  obtain ⟨⟨hsm,reads,rfl⟩,files⟩ := read
  obtain rfl := ensure_ok.mp same
  refine ends_mono (nativeTls_grounded material) fun last _ extends_ native => ?_
  refine ⟨fun marker member => ?_,fun other same => ?_,fun file member => (files file member).later extends_.subset⟩
  · simp only [Request.markers,List.mem_cons,List.not_mem_nil,or_false] at member
    obtain rfl | rfl := member
    · exact ⟨_,found.1.later (more.trans (further.trans extends_)).subset,.inl ⟨material,given,rfl,rfl⟩⟩
    · exact ⟨_,sealed.1.later (further.trans extends_).subset,.inr ⟨rfl,hsm,extends_.subset reads,rfl⟩⟩
  · obtain rfl := Except.ok.inj (given.symm.trans same)
    exact native

theorem write_native_grounded (name : String) (contents : Bytes) (may : MayChange request deeds) :
    (write (nativeTlsPath name) contents false).run.Grounded (Allows request) (Ends deeds fun _ _ => True) deeds := by
  unfold nativeTlsPath
  dsimp only
  split_ifs
  · exact ends_mono (writeIn_grounded ["regtest"] may ⟨by simp [lostAndFound],by simp [lostAndFound]⟩ nofun)
      fun _ _ _ _ => trivial
  · exact ends_mono (writeIn_grounded ["regtest","hold"] may ⟨by simp [lostAndFound],by simp [lostAndFound]⟩
      nofun) fun _ _ _ _ => trivial

theorem seedCln_grounded (given : tlsMaterial around = .ok material) : (seedCln material).run.Grounded
    (Allows (.execClnHold around)) (Ends deeds fun now _ => Begun (.execClnHold around) now) deeds := by
  unfold seedCln
  refine ends_bind fresh_grounded fun first _ _ bare => ?_
  refine ends_bind (write_marker_grounded (.inl ⟨bare,rfl⟩) (.inl ⟨material,given,rfl,rfl⟩) (by decide)) fun second _ more wrote => ?_
  have bare := bare.later more.subset
  refine ends_bind (createDirAll_grounded (.inl ⟨bare,rfl⟩) (by simp [lostAndFound])) fun third _ further _ => ?_
  have bare := bare.later further.subset
  refine ends_mono (ends_forM (fun _ _ => True) (fun _ _ _ _ _ => trivial) fun entry _ now extends_ =>
    write_native_grounded entry.1 entry.2 (.inl ⟨bare.later extends_.subset,rfl⟩)) fun last _ extends_ _ => ?_
  exact ⟨bare.later extends_.subset,_,wrote.later (further.trans extends_).subset⟩

theorem execClnHold_grounded : (execClnHold around).run.Grounded (Allows (.execClnHold around))
    (fun now outcome => ∀ u, outcome = .ok u → Settled (.execClnHold around) now) [] := by
  unfold execClnHold
  refine .afterSettle (fun _ => nofun) fun material given => ?_
  have prepared : (prepareCln material).run.Grounded (Allows (.execClnHold around))
      (Ends [] fun now _ => Begun (.execClnHold around) now ∨ Intact (.execClnHold around) now) [] := by
    unfold prepareCln
    refine ends_submit rfl (.looks rfl rfl) fun (started : Bool) => ?_
    cases started with
    | true => exact ends_mono (verifyCln_grounded given) fun _ _ _ intact => .inr intact
    | false => exact ends_mono (seedCln_grounded given) fun _ _ _ begun => .inl begun
  refine .andThen prepared (fun _ _ _ => nofun) fun now _ ends => ?_
  have ready := ends.value _ rfl
  refine (entering_grounded _ rfl rfl (ends.extends_.calm (by simp [Calm])) ready).mono fun last outcome entered u same => ?_
  exact ready.imp (·.later (entered u same)) (·.later (entered u same))

theorem clnHoldReady_grounded : clnHoldReady.run.Grounded (Allows .clnHoldReady)
    (fun now outcome => ∀ u, outcome = .ok u → Settled .clnHoldReady now) [] := by
  have sealing : ∀ deeds, sealCln.run.Grounded (Allows .clnHoldReady) (Ends deeds fun now _ => Settled .clnHoldReady now) deeds := by
    intro deeds
    unfold sealCln
    refine ends_bind clnIdentity_grounded fun first identity _ read => ?_
    obtain ⟨⟨hsm,reads,rfl⟩,_⟩ := read
    refine ends_submit rfl (.looks rfl rfl) fun (there : Bool) => ?_
    have reads : ReadsHsm (.did (.tryExists [cln]) there :: first) hsm := List.mem_cons_of_mem _ reads
    cases there with
    | true =>
      refine ends_bind (regular_grounded _) fun last bytes extends_ found => ends_settled fun _ same => ?_
      obtain rfl := ensure_ok.mp same
      exact ⟨_,.inl found.1,rfl,hsm,extends_.subset reads,rfl⟩
    | false =>
      refine ends_mono (write_marker_grounded (.inr rfl) ⟨rfl,hsm,reads,rfl⟩ (by decide)) fun last _ extends_ wrote => ?_
      exact ⟨_,.inr wrote,rfl,hsm,extends_.subset reads,rfl⟩
  unfold clnHoldReady
  refine .afterSubmit (fun _ => nofun) (.looks rfl rfl) fun _ => .afterSubmit (fun _ => nofun) (.looks rfl rfl) fun _ => ?_
  refine .afterSubmit (fun _ => nofun) (.looks rfl rfl) fun _ => .afterSubmit (fun _ => nofun) (.looks rfl rfl) fun _ => ?_
  exact (sealing _).mono fun _ _ ends => ends.value
end

/-! ### Bark wallet processor -/

section
variable {around : Surroundings} {seed : String}

theorem bindMarker_grounded {marker record : String} (start : request.initializes = true) (bound : ∀ now, Bound request now marker (utf8 record))
    (named : marker ≠ lostAndFound) : (bindMarker marker record).run.Grounded (Allows request)
      (Ends deeds fun now found => if found = true then Found now [marker] (utf8 record)
        else Bare now ∧ Wrote now marker (utf8 record)) deeds := by
  unfold bindMarker
  refine ends_submit rfl (.looks rfl rfl) fun metadata => ends_settle fun _ _ => ?_
  refine ends_try rfl (.looks rfl rfl) (fun (metadata : Metadata) => ?_) fun error => ?_
  · unfold boundMarker
    refine ends_settle fun _ file => ?_
    refine ends_bind (readBounded_grounded _ _) fun now bytes extends_ read => ends_settle fun _ same => ends_value ?_
    obtain rfl := ensure_ok.mp same
    rw [if_pos rfl]
    exact ⟨⟨metadata,ensure_ok.mp file,extends_.subset List.mem_cons_self⟩,128,read⟩
  · cases error with
    | notFound =>
      refine ends_bind fresh_grounded fun now _ _ bare => ?_
      refine ends_bind (write_marker_grounded (.inl ⟨bare,start⟩) (bound now) named) fun last _ extends_ wrote => ends_value ?_
      rw [if_neg Bool.false_ne_true]
      exact ⟨bare.later extends_.subset,wrote⟩
    | io => exact ends_throw _
    | refused message => exact ends_throw _

theorem bindIdentity_grounded (given : processorSeed around = .ok seed) : (bindIdentity seed).run.Grounded
    (Allows (.execProcessor around))
      (Ends deeds fun now _ => Begun (.execProcessor around) now ∨ Intact (.execProcessor around) now) deeds := by
  have bound : ∀ now, Bound (.execProcessor around) now identityMarker (utf8 (identityRecord "bark-wallet" seed)) :=
    fun _ => ⟨seed,given,rfl,rfl⟩
  unfold bindIdentity
  refine ends_bind (bindMarker_grounded rfl bound (by decide)) fun now found _ marked => ?_
  cases found with
  | true =>
    rw [if_pos rfl] at marked
    refine ends_mono (ends_forM (fun name now => Present now [name]) (fun _ _ _ extends_ present =>
      present.later extends_.subset) fun name _ later _ => database_grounded [name] _ _) fun last _ extends_ files => ?_
    refine .inr ⟨fun marker member => ?_,files⟩
    obtain rfl := List.mem_singleton.mp member
    exact ⟨_,marked.later extends_.subset,bound last⟩
  | false =>
    rw [if_neg Bool.false_ne_true] at marked
    exact ends_value (.inl ⟨marked.1,_,marked.2⟩)

theorem execProcessor_grounded : (execProcessor around).run.Grounded (Allows (.execProcessor around))
    (fun now outcome => ∀ u, outcome = .ok u → Settled (.execProcessor around) now) [] := by
  unfold execProcessor
  refine .afterSettle (fun _ => nofun) fun methods _ => .afterSettle (fun _ => nofun) fun seed given => ?_
  refine .afterSettle (fun _ => nofun) fun _ _ => ?_
  refine .andThen (bindIdentity_grounded given) (fun _ _ _ => nofun) fun now _ ends => ?_
  have ready := ends.value _ rfl
  refine (entering_grounded _ rfl rfl (ends.extends_.calm (by simp [Calm])) ready).mono fun last outcome entered u same => ?_
  exact ready.imp (·.later (entered u same)) (·.later (entered u same))
end

/-! ### Commands -/

/-- Of every command. -/
theorem code_grounded (request : Request) : (code request).Grounded (Allows request)
    (fun now outcome => ∀ u, outcome = .ok u → Settled request now) [] := by
  cases request with
  | prepareServer around => exact prepareServer_grounded
  | execServer around => exact execServer_grounded
  | execClnHold around => exact execClnHold_grounded
  | clnHoldReady => exact clnHoldReady_grounded
  | execProcessor around => exact execProcessor_grounded
end

end Proofstorm.Startup
