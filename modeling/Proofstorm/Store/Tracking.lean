import Proofstorm.Store.System

/-!
`track_session` on one state of the store. Its loop follows a chain of derived
ids past the rows that are finished or of others, and ends because the derived
ids are distinct and the rows are finitely many (`searchSession_ends`). A row
that it opens is the one that the next call finds (`searchSession_again`), so
`trackSession_own` says all of a call and of its repetition.
-/
namespace Proofstorm.Store
open Proofstorm.Core
open Proofstorm.Interleaving.Call (Alone alone_bind alone_query alone_settle alone_submit)

section
variable [CoreFunctions]

/-- `digest_json` writes `sha256:` and lowercase hexadecimal digits. -/
def HexDigests : Prop :=
  ∀ document, ∃ digits : List Char, digits ≠ [] ∧ (∀ c ∈ digits, c.isDigit = true ∨ c.isLower = true) ∧
    digestJson document = "sha256:" ++ String.ofList digits

theorem sessionId_slug (hex : HexDigests) (document : Digestible) : isSlug (sessionId (digestJson document)) = true := by
  obtain ⟨digits,some_,digit,same⟩ := hex document
  have chars : (sessionId (digestJson document)).toList = "session-".toList ++ digits.take 32 := by
    rw [same]
    simp [sessionId,slice]
  have plain : ∀ c ∈ digits.take 32, c ≠ '-' ∧ (c.isLower = true ∨ c.isDigit = true) := by
    intro c member
    rcases digit c (List.mem_of_mem_take member) with number | letter
    · exact ⟨by rintro rfl; exact absurd number (by decide),.inr number⟩
    · exact ⟨by rintro rfl; exact absurd letter (by decide),.inl letter⟩
  have full : digits.take 32 ≠ [] := by simpa using some_
  have short : (digits.take 32).length ≤ 32 := by simp
  generalize digits.take 32 = rest at chars plain full short
  simp only [isSlug,chars,decide_eq_true_eq]
  refine ⟨by simp,?_,by simp,?_,?_,?_⟩
  · simp only [List.length_append]
    exact (Nat.add_le_add_left short _).trans (by decide)
  · rw [List.getLast?_append_of_ne_nil _ full,List.getLast?_eq_some_getLast full]
    exact fun same => (plain _ (List.getLast_mem full)).1 (Option.some.inj same)
  · rw [List.all_append,Bool.and_eq_true]
    refine ⟨by decide,List.all_eq_true.mpr fun c member => ?_⟩
    simp [(plain c member).2]
  · -- The only hyphen is followed by a digit.
    cases rest with
    | nil => exact absurd rfl full
    | cons first others =>
      have after : ((first :: others).zip others).all (fun pair => ¬ (pair.1 = '-' ∧ pair.2 = '-')) = true := by
        rw [List.all_eq_true]
        rintro ⟨a,b⟩ member
        have here := (plain a (List.of_mem_zip member).1).1
        simp [here]
      simpa [(plain first (by simp)).1] using after

/-- The id that the loop derives in a turn. -/
def derivedId (requested context : String) (generation : Nat) : String :=
  sessionId (digestJson (.interval requested context generation))

/-- The id that the loop begins with. -/
def firstId (requested context : String) : String := if requested = "" then sessionId context else requested

section
variable {db : Db} {workspace principal experiment requested context id : String} {generation : Nat}

/-- More turns than it takes change nothing. -/
theorem searchSession_more {fuel : Nat} {search : SessionSearch} (more : Nat)
    (ended : searchSession workspace principal experiment requested context db fuel id generation = some search) :
    searchSession workspace principal experiment requested context db (fuel + more) id generation = some search := by
  induction fuel generalizing id generation with
  | zero => cases ended
  | succ fuel ih =>
    rw [Nat.add_right_comm,searchSession]
    rw [searchSession] at ended
    cases found : db.sessions.find (workspace,id) with
    | none => simpa [found] using ended
    | some existing =>
      simp only [found] at ended ⊢
      split at ended
      · rename_i own
        rwa [if_pos own]
      · rename_i other
        rw [if_neg other]
        exact ih ended

theorem searchSession_none_has {fuel : Nat}
    (spent : searchSession workspace principal experiment requested context db (fuel + 1) id generation = none) :
    db.sessions.has (workspace,id) := by
  by_contra free
  rw [searchSession,Table.not_has.mp free] at spent
  cases spent

/-- A loop that has not ended found a row under every id that it derived. -/
theorem searchSession_none {fuel : Nat}
    (spent : searchSession workspace principal experiment requested context db fuel id generation = none) :
    ∀ turn, turn + 1 < fuel → db.sessions.has (workspace,derivedId requested context (generation + (turn + 1))) := by
  induction fuel generalizing id generation with
  | zero => exact fun _ before => absurd before (Nat.not_lt_zero _)
  | succ fuel ih =>
    obtain ⟨existing,member,same⟩ := searchSession_none_has spent
    rw [searchSession,Table.find_eq_some.mpr ⟨member,same⟩] at spent
    dsimp only at spent
    split at spent
    · cases spent
    · intro turn before
      cases turn with
      | zero =>
        obtain ⟨fuel,rfl⟩ := Nat.exists_eq_add_one.mpr (show 0 < fuel by omega)
        exact searchSession_none_has spent
      | succ turn =>
        have later := ih spent turn (by omega)
        rwa [show generation + 1 + (turn + 1) = generation + (turn + 1 + 1) by omega] at later

/-- Distinct derived ids outnumber the rows, so one of them is free. -/
theorem searchSession_ends (workspace principal experiment id : String)
    (distinct : Set.InjOn (derivedId requested context) {generation | generation ≤ db.sessions.rows.length + 1}) :
    ∃ search, searchSession workspace principal experiment requested context db (db.sessions.rows.length + 2) id 0 =
      some search := by
  by_contra endless
  have spent := Option.eq_none_iff_forall_ne_some.mpr fun search ended => endless ⟨search,ended⟩
  let ids := (List.range (db.sessions.rows.length + 1)).map fun turn =>
    (workspace,derivedId requested context (turn + 1))
  have apart : ids.Nodup := by
    refine List.Nodup.map_on ?_ List.nodup_range
    intro a early b late same
    rw [List.mem_range] at early late
    have := distinct (show a + 1 ≤ _ by omega) (show b + 1 ≤ _ by omega) (congrArg Prod.snd same)
    omega
  have taken : ids ⊆ db.sessions.rows.map key := by
    intro k member
    obtain ⟨turn,early,rfl⟩ := List.mem_map.mp member
    rw [List.mem_range] at early
    obtain ⟨row,there,same⟩ := searchSession_none spent turn (by omega)
    rw [Nat.zero_add] at same
    exact List.mem_map.mpr ⟨row,there,same⟩
  have fewer := (List.subperm_of_subset apart taken).length_le
  simp [ids] at fewer

/-- Where the free id has become an open session of the caller, the loop stops there. -/
theorem searchSession_again {fuel : Nat} (session : Session)
    (ended : searchSession workspace principal experiment requested context db fuel id generation =
      some (.free session.id))
    (home : session.workspaceId = workspace) (own : session.principalId = principal)
    (run : session.experimentId = experiment) (unfinished : session.finishedAtUnix = none) :
    searchSession workspace principal experiment requested context
      { db with sessions := db.sessions.insert session } fuel id generation = some (.found session) := by
  induction fuel generalizing id generation with
  | zero => cases ended
  | succ fuel ih =>
    rw [searchSession] at ended ⊢
    simp only [Table.find_insert]
    cases found : db.sessions.find (workspace,id) with
    | none =>
      rw [found] at ended
      cases ended
      have same : key session = (workspace,session.id) := Prod.ext home rfl
      simp [same,own,run,unfinished]
    | some existing =>
      simp only [found,Option.some_or] at ended ⊢
      split at ended
      · cases ended
      · rename_i other
        rw [if_neg other]
        exact ih ended
end

/-- A call whose transaction succeeds succeeds. -/
theorem trackSession_of {db after : Db} {workspace principal experiment requested contextId : String} {run : Experiment}
    {session : Session} {now : Int} (present : db.experiments.find (workspace,experiment) = some run)
    (slug : isSlug (firstId requested (digestJson (.context workspace principal experiment contextId))) = true)
    (tracked : trackSessionTx workspace principal experiment run.instanceId requested
      (digestJson (.context workspace principal experiment contextId))
      (firstId requested (digestJson (.context workspace principal experiment contextId))) now db = .ok (session,after)) :
    Alone execute (trackSession workspace principal experiment requested contextId now) db session after := by
  simp only [trackSession,alone_bind,alone_query,alone_settle,alone_submit]
  have read : experimentUnchecked workspace experiment db = .ok run := by rw [experimentUnchecked,present]; rfl
  exact ⟨run,db,⟨read,rfl⟩,⟨⟩,db,⟨ensure_of slug,rfl⟩,tracked⟩

/-- A call of `track_session` alone, where the run and all that a session row
    refers to are there, and the derived ids are distinct: the loop ends, the
    session is an open one of the principal in the run, the rows that were there
    are as they were, at most this one is new, and the same call again returns it. -/
theorem trackSession_own {db : Db} {workspace principal experiment requested contextId : String} {run : Experiment}
    (hex : HexDigests) (present : db.experiments.find (workspace,experiment) = some run)
    (workspaces : db.workspaces.has workspace) (principals : db.principals.has principal)
    (instances : db.instances.has (workspace,run.instanceId)) (asked : requested = "" ∨ isSlug requested = true)
    (distinct : Set.InjOn (derivedId requested (digestJson (.context workspace principal experiment contextId)))
      {generation | generation ≤ db.sessions.rows.length + 1}) (now : Int) :
    (let context := digestJson (.context workspace principal experiment contextId)
      ∃ turns search, ∀ fuel, turns ≤ fuel →
        searchSession workspace principal experiment requested context db fuel (firstId requested context) 0 = some search) ∧
      ∃ session after, Alone execute (trackSession workspace principal experiment requested contextId now) db session after ∧
        session ∈ after.sessions ∧ session.workspaceId = workspace ∧ session.finishedAtUnix = none ∧
        session.principalId = principal ∧ session.experimentId = experiment ∧
        (after = db ∨ after.sessions.rows = db.sessions.rows ++ [session] ∧
          after = { db with sessions := after.sessions }) ∧
        ∀ later, Alone execute (trackSession workspace principal experiment requested contextId later) after session after := by
  have slug : isSlug (firstId requested (digestJson (.context workspace principal experiment contextId))) = true := by
    rcases asked with rfl | slug
    · exact sessionId_slug hex _
    · rw [firstId]
      split
      · exact sessionId_slug hex _
      · exact slug
  obtain ⟨search,ended⟩ := searchSession_ends workspace principal experiment
    (firstId requested (digestJson (.context workspace principal experiment contextId))) distinct
  refine ⟨⟨db.sessions.rows.length + 2,search,fun fuel enough => ?_⟩,?_⟩
  · obtain ⟨more,rfl⟩ := Nat.exists_eq_add_of_le enough
    exact searchSession_more more ended
  · cases search with
    | found session =>
      obtain ⟨member,home,own,run_,unfinished⟩ := searchSession_found ended
      have tracked : ∀ time, Alone execute (trackSession workspace principal experiment requested contextId time) db
          session db := by
        intro time
        apply trackSession_of present slug
        simp [trackSessionTx,ended]
      exact ⟨session,db,tracked now,member,home,unfinished,own,run_,.inl rfl,tracked⟩
    | free id =>
      have free := searchSession_free ended
      let session : Session := ⟨id,workspace,experiment,run.instanceId,principal,.active,now,now,none⟩
      have rows : (db.sessions.insert session).rows = db.sessions.rows ++ [session] := Table.insert_of_free free
      refine ⟨session,{ db with sessions := db.sessions.insert session },trackSession_of present slug ?_,
        Table.mem_insert.mpr (.inr ⟨rfl,free⟩),rfl,rfl,rfl,rfl,.inr ⟨rows,rfl⟩,fun later => ?_⟩
      · have held := Table.has_of_find present
        simp [trackSessionTx,ended,ensure,workspaces,principals,held,instances,session]
      · have again := searchSession_more 1 (searchSession_again session ended rfl rfl rfl rfl)
        have still : { db with sessions := db.sessions.insert session }.experiments.find (workspace,experiment) = some run :=
          present
        apply trackSession_of still slug
        simp [trackSessionTx,rows,again]
end

section
attribute [local instance] CoreFunctions.sample

theorem sample_hex : HexDigests := by
  have digit : ∀ n : Fin 16, (Nat.digitChar n).isDigit = true ∨ (Nat.digitChar n).isLower = true := by decide
  intro document
  refine ⟨_,?_,?_,rfl⟩
  · simp
  · intro c member
    obtain ⟨place,_,rfl⟩ := List.mem_map.mp member
    exact digit ⟨_,Nat.mod_lt _ (by decide)⟩

/-- A run with two sessions, of which the first is finished. -/
def interrupted : Config :=
  ran (inTurn (prepared [("one",["alice"])] ++ [.grant "w" "p" .experimentRead,sampleInstance "cell-1" "n" "k1" ["alice"],
    .createExperiment "w" "p" "run-1" "cell-1" "k2" 1,.trackSession "w" "p" "run-1" "watch" "context" 2,
    .finishSession "w" "p" "watch" 3,.trackSession "w" "q" "run-1" "other" "context" 3]))

set_option maxRecDepth 100000 in
/-- The id of a finished session leads to a new one. -/
theorem trackSession_own_interrupted : interrupted.state.sessions.rows.map Session.id = ["watch","other"] ∧
    ∃ session after, Alone execute (trackSession "w" "p" "run-1" "watch" "context" 4) interrupted.state session after ∧
      session.finishedAtUnix = none ∧ session.principalId = "p" := by
  have seen : interrupted.state.sessions.rows.map Session.id = ["watch","other"] ∧
      (interrupted.state.experiments.find ("w","run-1")).map Experiment.instanceId = some "cell-1" ∧
      interrupted.state.workspaces.has "w" ∧ interrupted.state.principals.has "p" ∧
      interrupted.state.instances.has ("w","cell-1") ∧
      ∀ a ∈ List.range 4, ∀ b ∈ List.range 4,
        derivedId "watch" (digestJson (.context "w" "p" "run-1" "context")) a =
          derivedId "watch" (digestJson (.context "w" "p" "run-1" "context")) b → a = b := by
    decide +kernel
  obtain ⟨rows,found,workspaces,principals,instances,distinct⟩ := seen
  obtain ⟨run,present,home⟩ := Option.map_eq_some_iff.mp found
  have length : interrupted.state.sessions.rows.length = 2 := by simpa using congrArg List.length rows
  have apart : Set.InjOn (derivedId "watch" (digestJson (.context "w" "p" "run-1" "context")))
      {generation | generation ≤ interrupted.state.sessions.rows.length + 1} := by
    rw [length]
    exact fun a small b little => distinct a (List.mem_range.mpr (Nat.lt_succ_of_le small)) b
      (List.mem_range.mpr (Nat.lt_succ_of_le little))
  have slug : isSlug "watch" = true := by decide
  obtain ⟨_,session,after,tracked,_,_,unfinished,own,_⟩ := trackSession_own sample_hex present workspaces principals
    (by rw [home]; exact instances) (.inr slug) apart 4
  exact ⟨rows,session,after,tracked,unfinished,own⟩
end

end Proofstorm.Store
