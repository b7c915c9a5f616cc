import Proofstorm.Traced

/-!
Calls that give up at their first failure (`Halts`). Left alone, such a call either
has failed or is on its way to where it leads with no step between its own
(`Trace.undisturbed`). One whose statements change nothing sees one state throughout
(`Halts.meets`).
-/
namespace Proofstorm.Interleaving
open Relation (ReflTransGen)

section
variable {State Statement Error α β : Type} {Answer : Statement → Type}

/-- Nobody else changes the state. -/
def Nobody (_ _ : State) : Prop := False

theorem nobody_eq {a b : State} (steps : ReflTransGen Nobody a b) : a = b := by
  cases steps with
  | refl => rfl
  | tail _ step => exact step.elim

/-- The call executes only statements that are `allowed`, and ends with the error of the first
    that fails. -/
def Call.Stops (allowed : Statement → Prop) : Call State Statement Error Answer (Except Error α) → Prop
  | .done _ => True
  | .read next => ∀ state, (next state).Stops allowed
  | .write statement next => allowed statement ∧ (∀ error, next (.error error) = .done (.error error)) ∧
      ∀ answer, (next (.ok answer)).Stops allowed

def Halts (allowed : Statement → Prop) (call : Fallible State Statement Error Answer α) : Prop := call.run.Stops allowed

section
variable {allowed : Statement → Prop}

theorem halts_settle (outcome : Except Error α) :
    Halts allowed (settle outcome : Fallible State Statement Error Answer α) := True.intro

theorem halts_pure (value : α) : Halts allowed (pure value : Fallible State Statement Error Answer α) := True.intro

theorem halts_submit {statement : Statement} (may : allowed statement) :
    Halts allowed (submit statement : Fallible State Statement Error Answer _) :=
  ⟨may,fun _ => rfl,fun _ => True.intro⟩

theorem Halts.bind {call : Fallible State Statement Error Answer α} {k : α → Fallible State Statement Error Answer β}
    (first : Halts allowed call) (then_ : ∀ value, Halts allowed (k value)) : Halts allowed (call >>= k) := by
  have each : ∀ inner : Call State Statement Error Answer (Except Error α), inner.Stops allowed →
      (inner >>= ExceptT.bindCont k).Stops allowed := by
    intro inner stops
    induction inner with
    | done outcome =>
      cases outcome with
      | ok value => exact then_ value
      | error error => exact True.intro
    | read next ih => exact fun state => ih state (stops state)
    | write statement next ih =>
      obtain ⟨may,failure,success⟩ := stops
      refine ⟨may,fun error => ?_,fun answer => ih (.ok answer) (success answer)⟩
      change next (.error error) >>= ExceptT.bindCont k = _
      rw [failure error]
      rfl
  exact each call.run first

theorem Call.Stops.mono {permitted : Statement → Prop} {call : Call State Statement Error Answer (Except Error α)}
    (stops : call.Stops allowed) (weaker : ∀ statement, allowed statement → permitted statement) : call.Stops permitted := by
  induction call with
  | done outcome => exact True.intro
  | read next ih => exact fun state => ih state (stops state)
  | write statement next ih =>
    obtain ⟨may,failure,success⟩ := stops
    exact ⟨weaker statement may,failure,fun answer => ih (.ok answer) (success answer)⟩

theorem Halts.mono {permitted : Statement → Prop} {call : Fallible State Statement Error Answer α} (halts : Halts allowed call)
    (weaker : ∀ statement, allowed statement → permitted statement) : Halts permitted call :=
  Call.Stops.mono halts weaker

/-- Such a call adds deeds where all it executes is allowed. -/
theorem Halts.grounded {call : Fallible State Statement Error Answer α} (halts : Halts allowed call)
    {may : List (Deed State Statement Answer) → Statement → Prop} {deeds : List (Deed State Statement Answer)}
    (permits : ∀ now statement, allowed statement → may now statement) :
    call.run.Grounded may (fun now _ => deeds ⊆ now) deeds := by
  have each : ∀ (inner : Call State Statement Error Answer (Except Error α)) (now : List (Deed State Statement Answer)),
      inner.Stops allowed → deeds ⊆ now → inner.Grounded may (fun now _ => deeds ⊆ now) now := by
    intro inner
    induction inner with
    | done outcome => exact fun now _ subset => subset
    | read next ih => exact fun now stops subset state => ih state _ (stops state) (List.subset_cons_of_subset _ subset)
    | write statement next ih =>
      intro now ⟨allows,failure,success⟩ subset
      refine ⟨permits now statement allows,fun answer => ih _ _ (success answer) (List.subset_cons_of_subset _ subset),
        fun error => ?_⟩
      rw [failure error]
      exact List.subset_cons_of_subset _ subset
  exact each call.run deeds halts (List.Subset.refl _)

section
variable {exec : (statement : Statement) → State → Except Error (Answer statement × State)}

/-- A call that changes nothing, and is left alone, ends as it does with no step between its own. -/
theorem Halts.meets {call : Fallible State Statement Error Answer α} (halts : Halts allowed call) (state : State)
    {needs : Statement → State → Prop} (asks : ∀ statement, allowed statement → needs statement state ∧
      ∀ answer after, exec statement state = .ok (answer,after) → after = state) :
    call.run.Meets exec Nobody needs (OnSuccess fun value now => now = state ∧ Call.Alone exec call state value state) state := by
  have each : ∀ inner : Call State Statement Error Answer (Except Error α), inner.Stops allowed →
      inner.Meets exec Nobody needs (OnSuccess fun value now => now = state ∧ inner.run exec state = (.ok value,state)) state := by
    intro inner
    induction inner with
    | done outcome =>
      intro _ now steps
      cases outcome with
      | ok value => exact ⟨(nobody_eq steps).symm,rfl⟩
      | error error => exact True.intro
    | read next ih =>
      intro stops now steps
      obtain rfl := nobody_eq steps
      exact ih state (stops state)
    | write statement next ih =>
      intro ⟨may,failure,success⟩ now steps
      obtain rfl := nobody_eq steps
      refine ⟨(asks statement may).1,fun answer after executed => ?_,fun error => ?_⟩
      · obtain rfl := (asks statement may).2 answer after executed
        refine (ih (.ok answer) (success answer)).mono fun outcome now ends => ?_
        cases outcome with
        | ok value => exact ⟨ends.1,by rw [Call.run,executed]; exact ends.2⟩
        | error error => exact True.intro
      · rw [failure error]
        exact fun _ _ => True.intro
  exact each call.run halts
end

end

end

end Proofstorm.Interleaving

namespace Proofstorm.Sequenced
open Proofstorm.Interleaving

section
variable {State Statement Error Reply α : Type} {Answer : Statement → Type}
  {exec : (statement : Statement) → State → Except Error (Answer statement × State)} {busy : Error}
  {env : State → State → Prop} {first state : State} {moments : List (Moment State Statement Answer)}

/-- What is left of a call meets what the call meets, and what its statements and the others keep holds on the way. -/
theorem Trace.meets {needs : Statement → State → Prop} {post : Reply → State → Prop} (kept : State → Prop)
    {call rest : Call State Statement Error Answer Reply} (trace : Trace exec busy env call first moments rest state)
    (meets : call.Meets exec env needs post first) (start : kept first) (stable : ∀ a b, kept a → env a b → kept b)
    (own : ∀ statement a answer b, kept a → needs statement a → exec statement a = .ok (answer,b) → kept b) :
    rest.Meets exec env needs post state ∧ kept state := by
  induction trace with
  | start => exact ⟨meets,start⟩
  | disturb _ changed ih => exact ⟨ih.1.later (.single changed),stable _ _ ih.2 changed⟩
  | step _ makes here ih =>
    obtain ⟨left,holds⟩ := ih
    cases makes with
    | read next now =>
      cases here
      exact ⟨left _ .refl,holds⟩
    | did statement next now answer after executed =>
      cases here
      obtain ⟨needed,success,_⟩ := left _ .refl
      exact ⟨success answer after executed,own statement _ answer after holds needed executed⟩
    | failed statement next now error why =>
      cases here
      exact ⟨(left _ .refl).2.2 error,holds⟩

/-- A call that is left alone has failed, or ends as it does with no step between its own. -/
theorem Trace.undisturbed {allowed : Statement → Prop} {call rest : Call State Statement Error Answer (Except Error α)}
    (trace : Trace exec busy Nobody call first moments rest state) (stops : call.Stops allowed) :
    rest.Stops allowed ∧ ((∃ error, rest = .done (.error error)) ∨ call.run exec first = rest.run exec state) := by
  induction trace with
  | start => exact ⟨stops,.inr rfl⟩
  | disturb _ changed => exact changed.elim
  | step _ makes here ih =>
    obtain ⟨left,on⟩ := ih
    cases makes with
    | read next now =>
      cases here
      exact ⟨left _,.inr (on.resolve_left (by simp))⟩
    | did statement next now answer after executed =>
      cases here
      have same := on.resolve_left (by simp)
      rw [Call.run,executed] at same
      exact ⟨left.2.2 answer,.inr same⟩
    | failed statement next now error why =>
      rw [left.2.1 error]
      exact ⟨True.intro,.inl ⟨error,rfl⟩⟩
end

end Proofstorm.Sequenced
