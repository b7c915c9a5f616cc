import Proofstorm.Actions.Capped
import Proofstorm.Ordered

/-!
The artifact of a component's logs is cut until its JSON text is at most 30 KiB:
a turn takes the longer of the two logs and drops its first quarter, up to the next
character boundary. A turn always shortens a log, so the loop ends, and it ends
with a text that fits or with no log left to cut.
-/
namespace Proofstorm.Actions
open Proofstorm.Core
open Proofstorm.Upload (byteLength)

/-- `ARTIFACT_TARGET_BYTES` -/
def artifactTargetBytes : Nat := 30 * 1024

/-- `serde_json::to_vec(artifact).len()`: names and documents can always be written. -/
def encodedSize (artifact : BTreeMap String Json) : Nat := (Json.object artifact.toList).byteLength

def logLength (artifact : BTreeMap String Json) (field : String) : Nat :=
  ((artifact[field]?.bind Json.asStr).map byteLength).getD 0

/-- The longer of the two logs, and the previous one where they are of one length. -/
def longerLog (artifact : BTreeMap String Json) : String :=
  if logLength artifact "log" ≤ logLength artifact "previous_log" then "previous_log" else "log"

/-- The characters from the first of them on that starts at or after a byte; `index`
    is the byte at which they start. -/
def fromBoundary (bound : Nat) : Nat → List Char → List Char
  | _, [] => []
  | index, c :: rest => if bound ≤ index then c :: rest else fromBoundary bound (index + c.utf8Size) rest

/-- A log without its first quarter, rounded up. -/
def dropQuarter (log : String) : String := .ofList (fromBoundary ((byteLength log + 3) / 4) 0 log.toList)

/-- One turn of the loop, where it does not stop. -/
def boundOnce (artifact : BTreeMap String Json) : Option (BTreeMap String Json) :=
  match artifact[longerLog artifact]? with
  | some (.str log) =>
    if log = "" then none
    else some ((artifact.insert (longerLog artifact) (.str (dropQuarter log))).insert
      (longerLog artifact ++ "_truncated") (.bool true))
  | _ => none

/-! ### A turn -/

theorem fromBoundary_suffix (bound index : Nat) (chars : List Char) : fromBoundary bound index chars <:+ chars := by
  induction chars generalizing index with
  | nil => exact List.suffix_rfl
  | cons c rest ih =>
    unfold fromBoundary
    split_ifs
    · exact List.suffix_rfl
    · exact (ih _).trans (List.suffix_cons c rest)

theorem dropQuarter_suffix (log : String) : (dropQuarter log).toList <:+ log.toList := by
  rw [dropQuarter,String.toList_ofList]
  exact fromBoundary_suffix _ _ _

theorem byteLength_pos {log : String} (some_ : log ≠ "") : 0 < byteLength log := by
  rw [byteLength]
  cases chars : log.toList with
  | nil => exact absurd (String.toList_eq_nil_iff.mp chars) some_
  | cons c rest =>
    have wide := c.utf8Size_pos
    rw [List.map_cons,List.sum_cons]
    omega

/-- A quarter is at least one byte, so the first character goes. -/
theorem dropQuarter_shorter {log : String} (some_ : log ≠ "") : (dropQuarter log).toList.length < log.toList.length := by
  have bytes := byteLength_pos some_
  rw [dropQuarter,String.toList_ofList]
  cases chars : log.toList with
  | nil => exact absurd (String.toList_eq_nil_iff.mp chars) some_
  | cons c rest =>
    have cut : ¬ (byteLength log + 3) / 4 ≤ 0 := by omega
    rw [fromBoundary,if_neg cut]
    have shorter := (fromBoundary_suffix ((byteLength log + 3) / 4) (0 + c.utf8Size) rest).length_le
    rw [List.length_cons]
    omega

theorem longerLog_mem (artifact : BTreeMap String Json) : longerLog artifact ∈ ["log","previous_log"] := by
  unfold longerLog
  split_ifs <;> decide

theorem logLength_text {artifact : BTreeMap String Json} {field text : String} (there : artifact[field]? = some (.str text)) :
    logLength artifact field = byteLength text := by
  rw [logLength,there]
  rfl

variable {artifact next : BTreeMap String Json}

/-- What a turn does. -/
theorem boundOnce_some (turn : boundOnce artifact = some next) :
    ∃ field ∈ ["log","previous_log"], ∃ log, artifact[field]? = some (.str log) ∧ log ≠ "" ∧
      next = (artifact.insert field (.str (dropQuarter log))).insert (field ++ "_truncated") (.bool true) := by
  unfold boundOnce at turn
  split at turn
  · rename_i log there
    split_ifs at turn with empty
    exact ⟨longerLog artifact,longerLog_mem artifact,log,there,empty,(Option.some.inj turn).symm⟩
  · cases turn

/-- The loop stops by itself where both logs are empty. -/
theorem boundOnce_none (stops : boundOnce artifact = none) {field text : String}
    (member : field ∈ ["log","previous_log"]) (there : artifact[field]? = some (.str text)) : text = "" := by
  have longest : logLength artifact field ≤ logLength artifact (longerLog artifact) := by
    simp only [List.mem_cons,List.not_mem_nil,or_false] at member
    unfold longerLog
    obtain rfl | rfl := member <;> split_ifs <;> omega
  have nothing : logLength artifact (longerLog artifact) = 0 := by
    unfold boundOnce at stops
    split at stops
    · rename_i log found
      split_ifs at stops with empty
      rw [logLength_text found,empty]
      rfl
    · rename_i other
      rw [logLength]
      cases found : artifact[longerLog artifact]? with
      | none => rfl
      | some value =>
        cases value with
        | str log => exact absurd found (other log)
        | null | bool | num | arr | obj => rfl
  by_contra some_
  have bytes := byteLength_pos some_
  rw [logLength_text there] at longest
  omega

/-! ### The loop -/

def logChars (artifact : BTreeMap String Json) (field : String) : Nat :=
  match artifact[field]? with
  | some (.str log) => log.toList.length
  | _ => 0

theorem get_turn (artifact : BTreeMap String Json) (field : String) (log other : String) :
    ((artifact.insert field (.str log)).insert (field ++ "_truncated") (.bool true))[other]? =
      if field ++ "_truncated" = other then some (.bool true) else if field = other then some (.str log) else artifact[other]? := by
  rw [BTreeMap.get_insert,BTreeMap.get_insert]

theorem boundOnce_shrinks (turn : boundOnce artifact = some next) :
    logChars next "log" + logChars next "previous_log" < logChars artifact "log" + logChars artifact "previous_log" := by
  obtain ⟨field,member,log,there,some_,rfl⟩ := boundOnce_some turn
  have shorter := dropQuarter_shorter some_
  simp only [List.mem_cons,List.not_mem_nil,or_false] at member
  obtain rfl | rfl := member
  · simp only [logChars,get_turn,there]
    simpa using shorter
  · simp only [logChars,get_turn,there]
    simpa using shorter

/-- `bound_artifact`. -/
def boundArtifact (artifact : BTreeMap String Json) : BTreeMap String Json :=
  if encodedSize artifact ≤ artifactTargetBytes then artifact
  else
    match _ : boundOnce artifact with
    | some next => boundArtifact next
    | none => artifact
termination_by logChars artifact "log" + logChars artifact "previous_log"
decreasing_by exact boundOnce_shrinks ‹_›

/-- What becomes of one log: it stays with its flag, or a later part of it is kept
    and the flag is set. -/
def LogKept (field : String) (artifact result : BTreeMap String Json) : Prop :=
  (result[field]? = artifact[field]? ∧ result[field ++ "_truncated"]? = artifact[field ++ "_truncated"]?) ∨
    ∃ text kept, artifact[field]? = some (.str text) ∧ result[field]? = some (.str kept) ∧ kept.toList <:+ text.toList ∧
      result[field ++ "_truncated"]? = some (.bool true)

theorem LogKept.trans {field : String} {result : BTreeMap String Json} (first : LogKept field artifact next)
    (second : LogKept field next result) : LogKept field artifact result := by
  obtain ⟨same,flag⟩ | ⟨text,kept,there,here,part,flag⟩ := first
  · obtain ⟨same',flag'⟩ | ⟨text,kept,there,here,part,flag'⟩ := second
    · exact .inl ⟨same'.trans same,flag'.trans flag⟩
    · exact .inr ⟨text,kept,same.symm.trans there,here,part,flag'⟩
  · obtain ⟨same',flag'⟩ | ⟨text',kept',there',here',part',flag'⟩ := second
    · exact .inr ⟨text,kept,there,same'.trans here,part,flag'.trans flag⟩
    · cases here.symm.trans there'
      exact .inr ⟨text,kept',there,here',part'.trans part,flag'⟩

theorem boundOnce_kept (turn : boundOnce artifact = some next) :
    ∀ field ∈ ["log","previous_log"], LogKept field artifact next := by
  obtain ⟨cut,member,log,there,_,rfl⟩ := boundOnce_some turn
  have part := dropQuarter_suffix log
  simp only [List.mem_cons,List.not_mem_nil,or_false] at member
  simp only [List.forall_mem_cons,List.not_mem_nil,false_implies,implies_true,and_true]
  obtain rfl | rfl := member
  · refine ⟨.inr ⟨log,_,there,?_,part,?_⟩,.inl ⟨?_,?_⟩⟩ <;> rw [get_turn] <;> rfl
  · refine ⟨.inl ⟨?_,?_⟩,.inr ⟨log,_,there,?_,part,?_⟩⟩ <;> rw [get_turn] <;> rfl

theorem boundOnce_others (turn : boundOnce artifact = some next) {key : String}
    (outside : key ∉ ["log","previous_log","log_truncated","previous_log_truncated"]) : next[key]? = artifact[key]? := by
  obtain ⟨cut,member,log,there,_,rfl⟩ := boundOnce_some turn
  simp only [List.mem_cons,List.not_mem_nil,or_false,not_or] at outside member
  obtain ⟨notLog,notPrevious,notFlag,notPreviousFlag⟩ := outside
  have flag : "log" ++ "_truncated" = "log_truncated" := by decide
  have previousFlag : "previous_log" ++ "_truncated" = "previous_log_truncated" := by decide
  rw [get_turn]
  obtain rfl | rfl := member
  · rw [flag,if_neg (Ne.symm notFlag),if_neg (Ne.symm notLog)]
  · rw [previousFlag,if_neg (Ne.symm notPreviousFlag),if_neg (Ne.symm notPrevious)]

/-- What the loop leaves of an artifact. -/
structure Bounded (artifact result : BTreeMap String Json) : Prop where
  size : encodedSize result ≤ artifactTargetBytes ∨
    ∀ field ∈ ["log","previous_log"], ∀ text, result[field]? = some (.str text) → text = ""
  logs : ∀ field ∈ ["log","previous_log"], LogKept field artifact result
  others : ∀ key ∉ ["log","previous_log","log_truncated","previous_log_truncated"], result[key]? = artifact[key]?
  whole : encodedSize artifact ≤ artifactTargetBytes → result = artifact

theorem boundArtifact_bounded (artifact : BTreeMap String Json) : Bounded artifact (boundArtifact artifact) := by
  induction artifact using boundArtifact.induct with
  | case1 artifact fits =>
    rw [boundArtifact,if_pos fits]
    exact ⟨.inl fits,fun _ _ => .inl ⟨rfl,rfl⟩,fun _ _ => rfl,fun _ => rfl⟩
  | case2 artifact large next turn ih =>
    have unfolded : boundArtifact artifact = boundArtifact next := by
      rw [boundArtifact,if_neg large]
      split
      · rename_i other same
        cases turn.symm.trans same
        rfl
      · rename_i stops
        cases turn.symm.trans stops
    rw [unfolded]
    constructor
    · exact ih.size
    · exact fun field member => (boundOnce_kept turn field member).trans (ih.logs field member)
    · exact fun key outside => (ih.others key outside).trans (boundOnce_others turn outside)
    · exact fun fits => absurd fits large
  | case3 artifact large stops =>
    have unfolded : boundArtifact artifact = artifact := by
      rw [boundArtifact,if_neg large]
      split
      · rename_i next turn
        cases stops.symm.trans turn
      · rfl
    rw [unfolded]
    exact ⟨.inr fun field member text there => boundOnce_none stops member there,fun _ _ => .inl ⟨rfl,rfl⟩,
      fun _ _ => rfl,fun _ => rfl⟩

/-- What is published is bounded as it is encoded, and nothing else of it changes. -/
theorem public_output_bounded {receipt : Json} (ordered : Ordered receipt) (artifact : BTreeMap String Json) :
    Capped receipt (capPublicStreams receipt) ∧ Bounded artifact (boundArtifact artifact) :=
  ⟨capPublicStreams_capped ordered,boundArtifact_bounded artifact⟩

theorem public_output_bounded_streams :
    Capped (.object [("exit_code",.num "0"),("stderr",.str "\n"),("stdout",.str "ok")])
      (capPublicStreams (.object [("exit_code",.num "0"),("stderr",.str "\n"),("stdout",.str "ok")])) ∧
      Bounded ∅ (boundArtifact ∅) := by
  refine public_output_bounded (fun fields same => ?_) ∅
  cases same
  unfold Entries.Sorted
  decide

end Proofstorm.Actions
