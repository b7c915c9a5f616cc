import Mathlib.Data.List.Chain
import Proofstorm.Lifecycle.Fence

/-!
The lifecycle of one workload in every run of the passes over a set of actions
with distinct sequences, the renders of the cell and the changes of the server,
in any order and each cut off anywhere (`lifecycle_fenced`). A start or a stop
leaves the restart token alone, so the token can be that of an older action
(`token_of_older`).
-/
namespace Proofstorm.Lifecycle
open Proofstorm.Interleaving

theorem printU64_injective {a b : UInt64} (same : printU64 a = printU64 b) : a = b := by
  have parsed := congrArg parseU64 same
  rw [parseU64_print,parseU64_print] at parsed
  exact Option.some.inj parsed

/-- The sequence of the workload never goes back. The workload is untouched or
    carries the one action with its sequence, or was replaced since; each of its
    versions comes of the one before by a transition, that of a render of the same
    identity keeps what actions wrote, and of another identity replaces the
    workload. An action has succeeded only with a version that carries it and has
    converged to it. -/
theorem lifecycle_fenced {actions : Action → Prop}
    (distinct : ∀ a b, actions a → actions b → a.sequence = b.sequence → a = b) {config : History actions}
    (reached : Reachable execute .unavailable code emptyCluster config) :
    (config.state.versions.Pairwise fun new old => old.lastSequence ≤ new.lastSequence) ∧
      (∀ workload ∈ config.state.versions, Untouched workload ∨ ∃ action, actions action ∧
        (∀ other, actions other → workload.sequence = some (printU64 other.sequence) → other = action) ∧
        (Carries action workload ∨ Replaced action workload)) ∧
      (config.state.versions.IsChain fun new old => Transition actions old new) ∧
      (Throughout (fun _ event => ∀ document, event.did = some (.apply document) →
        ∀ old older, event.before.versions = old :: older →
          ∃ new, event.after.versions = new :: old :: older ∧ Renders old new) config.log) ∧
      ∀ action observed, (action,.succeeded observed) ∈ config.state.reports →
        observed ∈ config.state.versions ∧ observed.sequence = some (printU64 action.sequence) ∧
          observed.state = some action.control.state ∧
          (action.control = .restart → observed.restartToken = some action.token) ∧
          ∃ plan : Plan, observed.matchesPlan plan = true ∧
            observed.converged (action.control = .stop) plan.desiredReplicas.toNat = true := by
  obtain ⟨fenced,renders⟩ := reachable_fenced reached
  refine ⟨?_,fun workload member => ?_,fenced.chain,renders,fun action observed reported => ?_⟩
  · let notBefore := fun new old : Workload => old.lastSequence ≤ new.lastSequence
    have : Trans notBefore notBefore notBefore := ⟨fun first second => UInt64.le_trans second first⟩
    have chain : config.state.versions.IsChain notBefore := fenced.chain.imp fun _ _ transition => transition.later
    exact List.isChain_iff_pairwise.mp chain
  · rcases fenced.governed workload member with untouched | ⟨action,among,carried⟩
    · exact .inl untouched
    · refine .inr ⟨action,among,fun other own same => ?_,carried⟩
      have sequence : workload.sequence = some (printU64 action.sequence) :=
        carried.elim Carries.sequence Replaced.sequence
      exact distinct other action own among (printU64_injective (Option.some.inj (same.symm.trans sequence)))
  · have completed := fenced.completed action observed reported
    have controlled : observed.state ≠ none := by
      rw [completed.state]
      exact Option.some_ne_none _
    exact ⟨completed.version,(fenced.governed observed completed.version).sequence controlled completed.sequence,
      completed.state,completed.token,completed.converged⟩

/-! ### A restart before a stop -/

def samplePlan : Plan where
  kind := .mint
  backendId := "mint"
  stateContract := "data"
  rolloutDigest := "digest"
  desiredReplicas := 1
  runs := by decide

def sampleRendered : Rendered where
  workload := ⟨none,none,some "mint",some "data",none,none,some 1,some "digest",none,none⟩
  fresh := ⟨rfl,rfl,rfl,rfl⟩
  runs := ⟨1,by decide,rfl⟩

def sampleRestart : Action := ⟨"first",5,.restart,false,.componentControl⟩
def sampleStop : Action := ⟨"second",6,.stop,false,.componentControl⟩

def sampleActions (action : Action) : Prop := action = sampleRestart ∨ action = sampleStop

/-- The workload is rendered, restarted and stopped. -/
def sampleHistory : History sampleActions :=
  play execute code emptyCluster
    [.start (.render sampleRendered),.finish 0,
      .start (.reconcile sampleRestart (.inl rfl) (some samplePlan) true),.finish 0,
      .start (.reconcile sampleStop (.inr rfl) (some samplePlan) true),.finish 0]

theorem sampleActions_distinct : ∀ a b, sampleActions a → sampleActions b → a.sequence = b.sequence → a = b := by
  rintro a b (rfl | rfl) (rfl | rfl) same
  · rfl
  · exact absurd same (by decide)
  · exact absurd same (by decide)
  · rfl

theorem lifecycle_fenced_stop : (sampleHistory.state.versions.Pairwise fun new old => old.lastSequence ≤ new.lastSequence) ∧
    sampleHistory.state.versions.map Workload.lastSequence = [6,5,0] :=
  ⟨(lifecycle_fenced sampleActions_distinct (Reachable.play _)).1,by decide +kernel⟩

/-- The workload carries the stop, and the token of the restart before it. -/
theorem token_of_older : ¬ ∀ (actions : Action → Prop), (∀ a b, actions a → actions b → a.sequence = b.sequence → a = b) →
    ∀ config : History actions, Reachable execute .unavailable code emptyCluster config →
      ∀ workload ∈ config.state.versions, ∀ action other, actions action → actions other →
        workload.sequence = some (printU64 action.sequence) → workload.restartToken = some other.token → other = action := by
  intro own
  have last : sampleHistory.state.versions.head?.map (fun workload => (workload.sequence,workload.restartToken)) =
      some (some (printU64 sampleStop.sequence),some sampleRestart.token) := by decide +kernel
  obtain ⟨workload,found,same⟩ := Option.map_eq_some_iff.mp last
  obtain ⟨sequence,token⟩ := Prod.mk.inj same
  have alike := own sampleActions sampleActions_distinct sampleHistory (Reachable.play _) workload (List.mem_of_head? found)
    sampleStop sampleRestart (.inr rfl) (.inl rfl) sequence token
  exact absurd alike (by decide)
end Proofstorm.Lifecycle
