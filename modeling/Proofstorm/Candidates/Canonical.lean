import Mathlib
import Proofstorm.Candidates.Sources

/-!
One source has one canonical request. Normalization only chooses a spelling: of a
pull request its number, of a commit its lower-case letters and the omission of the
canonical repository, of a bundle the order of its prerequisites. What it chose it
keeps, and commits that differ stay apart.
-/
namespace Proofstorm.Candidates
open Proofstorm.Publication (splitOnce)
open Proofstorm.Validation (isAlphanumeric isLowercase)
open Proofstorm.Lifecycle (parseU64 printU64 parseU64_print)
open Proofstorm.Upload (Bytes Hash byteLength isHexDigit)

/-! ### Letters in lower case -/

def capitals : List Char :=
  ['A','B','C','D','E','F','G','H','I','J','K','L','M','N','O','P','Q','R','S','T','U','V','W','X','Y','Z']

variable {c : Char} {value sha url repository head : String} {separator line rest : List Char}
  {input result : CandidateInput} {set : Std.ExtTreeSet String} {prerequisites : List String} {version : Nat}
  {header : BundleHeader}

theorem mem_capitals (upper : c.isUpper = true) : c ∈ capitals := by
  obtain ⟨least,most⟩ : 65 ≤ c.toNat ∧ c.toNat ≤ 90 := by
    simpa [Char.isUpper,UInt32.le_iff_toNat_le,Char.toNat_val] using upper
  rw [(Char.ofNat_toNat c).symm]
  interval_cases c.toNat <;> decide

/-- What no capital letter loses in lower case, no character loses. -/
theorem toLower_keeps {α : Type} (f : Char → α) (letters : ∀ c ∈ capitals, f c.toLower = f c) (c : Char) :
    f c.toLower = f c := by
  by_cases upper : c.isUpper = true
  · exact letters c (mem_capitals upper)
  · rw [Char.toLower_eq_of_not_isUpper upper]

@[simp] theorem utf8Size_toLower (c : Char) : c.toLower.utf8Size = c.utf8Size :=
  toLower_keeps Char.utf8Size (by simp [capitals,Char.utf8Size]) c

@[simp] theorem isHexDigit_toLower (c : Char) : isHexDigit c.toLower = isHexDigit c :=
  toLower_keeps isHexDigit (by simp [capitals,isHexDigit]) c

@[simp] theorem isAlphanumeric_toLower (c : Char) : isAlphanumeric c.toLower = isAlphanumeric c :=
  toLower_keeps isAlphanumeric (by simp [capitals,isAlphanumeric,isLowercase]) c

/-- A mark that is no letter stays the only one of its kind. -/
theorem toLower_mark (mark : Char) (letters : ∀ c ∈ capitals, decide (c.toLower = mark) = decide (c = mark)) (c : Char) :
    c.toLower = mark ↔ c = mark :=
  decide_eq_decide.mp (toLower_keeps (fun d => decide (d = mark)) letters c)

theorem toLower_slash (c : Char) : c.toLower = '/' ↔ c = '/' := toLower_mark '/' (by simp [capitals]) c

theorem toLower_dot (c : Char) : c.toLower = '.' ↔ c = '.' := toLower_mark '.' (by simp [capitals]) c

/-- A text of marks alone is the lower case of itself only. -/
theorem map_eq_marks {marks : List Char} (only : ∀ mark ∈ marks, ∀ c : Char, c.toLower = mark ↔ c = mark)
    (text : List Char) : text.map Char.toLower = marks ↔ text = marks := by
  induction marks generalizing text with
  | nil => simp
  | cons mark rest ih =>
    cases text with
    | nil => simp
    | cons c text =>
      have head := only mark List.mem_cons_self c
      have tail := ih (fun other member => only other (List.mem_cons_of_mem mark member)) text
      simp [head,tail]

@[simp] theorem toList_asciiLowercase (text : String) :
    (asciiLowercase text).toList = text.toList.map Char.toLower := by
  simp [asciiLowercase]

@[simp] theorem asciiLowercase_asciiLowercase (text : String) :
    asciiLowercase (asciiLowercase text) = asciiLowercase text := by
  simp [asciiLowercase,Function.comp_def]

@[simp] theorem byteLength_ofList (list : List Char) : byteLength (.ofList list) = (list.map Char.utf8Size).sum := by
  simp [byteLength]

@[simp] theorem byteLength_asciiLowercase (text : String) : byteLength (asciiLowercase text) = byteLength text := by
  simp [byteLength,Function.comp_def]

/-! ### Full commits -/

/-- Forty hexadecimal digits, in letters of either case. -/
def IsSha (value : String) : Prop := byteLength value = 40 ∧ value.toList.all isHexDigit = true

theorem fullSha_eq : fullSha value = some sha ↔ IsSha value ∧ asciiLowercase value = sha := by
  unfold fullSha IsSha
  split <;> simp_all

theorem all_isHexDigit_lower (text : String) :
    (asciiLowercase text).toList.all isHexDigit = text.toList.all isHexDigit := by
  simp only [toList_asciiLowercase,List.all_map,Function.comp_def,isHexDigit_toLower]

theorem IsSha.lower (full : IsSha value) : IsSha (asciiLowercase value) := by
  rw [IsSha,byteLength_asciiLowercase,all_isHexDigit_lower]
  exact full

theorem fullSha_fixed (read : fullSha value = some sha) : fullSha sha = some sha := by
  obtain ⟨full,rfl⟩ := fullSha_eq.mp read
  exact fullSha_eq.mpr ⟨full.lower,asciiLowercase_asciiLowercase value⟩

theorem IsSha.not_mem (full : IsSha value) {c : Char} (mark : isHexDigit c = false) :
    c ∉ value.toList := by
  intro member
  have digit := List.all_eq_true.mp full.2 c member
  rw [mark] at digit
  cases digit

/-! ### Repositories -/

theorem splitOnce_map {f : Char → Char} {mark : Char} (only : ∀ c, f c = mark ↔ c = mark) (text : List Char) :
    splitOnce [mark] (text.map f) =
      (splitOnce [mark] text).map fun (before,after) => (before.map f,after.map f) := by
  induction text with
  | nil => rfl
  | cons c rest ih =>
    have same : ([mark].isPrefixOf (f c :: rest.map f)) = [mark].isPrefixOf (c :: rest) := by
      have iff := only c
      simp only [List.isPrefixOf,Bool.and_true]
      rw [Bool.eq_iff_iff,beq_iff_eq,beq_iff_eq,eq_comm,iff,eq_comm]
    rw [List.map_cons,splitOnce,splitOnce,same,ih]
    split
    · simp
    · cases splitOnce [mark] rest <;> rfl

theorem isRepositoryPart_lower (max : Nat) (part : List Char) :
    isRepositoryPart max (part.map Char.toLower) = isRepositoryPart max part := by
  have dot : part.map Char.toLower = ['.'] ↔ part = ['.'] :=
    map_eq_marks (by simpa using toLower_dot) part
  have dots : part.map Char.toLower = ['.','.'] ↔ part = ['.','.'] :=
    map_eq_marks (by simpa using toLower_dot) part
  have marks : ∀ c : Char, "._-".toList.contains c.toLower = "._-".toList.contains c :=
    toLower_keeps ("._-".toList.contains ·) (by simp [capitals])
  have letters : ((part.map Char.toLower).all fun c => isAlphanumeric c || "._-".toList.contains c) =
      part.all fun c => isAlphanumeric c || "._-".toList.contains c := by
    simp only [List.all_map,Function.comp_def,isAlphanumeric_toLower,marks]
  unfold isRepositoryPart
  rw [letters]
  simp [Function.comp_def,bne,beq_eq_decide,dot,dots]

theorem isGithubRepository_lower (name : String) :
    isGithubRepository (asciiLowercase name) = isGithubRepository name := by
  unfold isGithubRepository
  rw [toList_asciiLowercase,splitOnce_map toLower_slash]
  cases splitOnce ['/'] name.toList with
  | none => rfl
  | some parts => simp [isRepositoryPart_lower]

/-! ### Texts split at their last separator -/

theorem rsplitOnce_sound {text before after : List Char}
    (found : rsplitOnce separator text = some (before,after)) : text = before ++ separator ++ after := by
  induction text generalizing before with
  | nil => cases found
  | cons c rest ih =>
    rw [rsplitOnce] at found
    split at found
    · rename_i first second later
      cases found
      rw [ih later]
      rfl
    · split at found
      · rename_i starts
        cases found
        obtain ⟨tail,same⟩ := List.isPrefixOf_iff_prefix.mp starts
        rw [← same,List.drop_left,List.nil_append]
      · cases found

/-- A text with fewer of the separator's marks has no separator. -/
theorem rsplitOnce_none {text : List Char} (c : Char) (few : text.count c < separator.count c) :
    rsplitOnce separator text = none := by
  induction text with
  | nil => rfl
  | cons d rest ih =>
    have fewer := ih (lt_of_le_of_lt (List.count_le_count_cons ..) few)
    have absent : separator.isPrefixOf (d :: rest) = false := by
      refine Bool.eq_false_iff.mpr fun starts => ?_
      obtain ⟨tail,same⟩ := List.isPrefixOf_iff_prefix.mp starts
      rw [← same,List.count_append] at few
      omega
    simp [rsplitOnce,fewer,absent]

theorem rsplitOnce_append {after : List Char} (before : List Char) (c : Char)
    (few : (separator ++ after).tail.count c < separator.count c) :
    rsplitOnce separator (before ++ (separator ++ after)) = some (before,after) := by
  induction before with
  | nil =>
    cases whole : separator ++ after with
    | nil => simp_all
    | cons d rest =>
      rw [whole,List.tail_cons] at few
      have starts : separator.isPrefixOf (d :: rest) = true := List.isPrefixOf_iff_prefix.mpr ⟨after,whole⟩
      rw [List.nil_append,rsplitOnce,rsplitOnce_none c few]
      simp [← whole]
  | cons d rest ih => simp [rsplitOnce,ih]

/-! ### Pull requests -/

theorem pullNumber_print (start : String) {number : UInt64} (positive : 0 < number) :
    pullNumber start (start ++ printU64 number) = some number := by
  have digits : ∀ c ∈ Nat.toDigits 10 number.toNat, c.isDigit = true :=
    fun c member => Nat.isDigit_of_mem_toDigits (by decide) (by decide) member
  have whole : (start ++ printU64 number).toList = start.toList ++ Nat.toDigits 10 number.toNat := by
    simp [printU64]
  have kept : (start ++ printU64 number).toList.rdropWhile (· == '/') = (start ++ printU64 number).toList := by
    rw [List.rdropWhile_eq_self_iff]
    intro some_ slash
    have last : (start ++ printU64 number).toList.getLast some_ ∈ Nat.toDigits 10 number.toNat := by
      simp only [whole]
      rw [List.getLast_append_of_ne_nil _ Nat.toDigits_ne_nil]
      exact List.getLast_mem _
    rw [beq_iff_eq.mp slash] at last
    cases digits '/' last
  have read : start.toList.isPrefixOf? (start ++ printU64 number).toList = some (Nat.toDigits 10 number.toNat) :=
    List.isPrefixOf?_eq_some_iff_append_eq.mpr whole.symm
  have text : String.ofList (Nat.toDigits 10 number.toNat) = printU64 number := by
    rw [printU64,← Nat.toList_repr,String.ofList_toList]
  unfold pullNumber
  dsimp only
  rw [kept,read,Option.bind_some,text,parseU64_print,Option.filter_some,if_pos (by simpa using positive)]

theorem pullNumber_positive {start : String} {number : UInt64} (read : pullNumber start url = some number) :
    0 < number := by
  simpa using (Option.filter_eq_some_iff.mp read).2

/-! ### Spellings of a commit -/

/-- The ways to ask for the commit `sha` of a repository. -/
inductive Spelling (canonical : String) : CandidateInput → String → String → Prop
  | omitted {sha : String} (full : IsSha sha) : Spelling canonical (.commit (some sha) none none) canonical sha
  | named {repository sha : String} (proper : isGithubRepository repository = true) (full : IsSha sha) :
      Spelling canonical (.commit (some sha) none (some repository)) repository sha
  | url {repository sha : String} (proper : isGithubRepository repository = true) (full : IsSha sha) :
      Spelling canonical (.commit none (some (githubUrl (repository ++ "/commit/" ++ sha))) none) repository sha

/-- The canonical request for the commit `sha` of a repository. -/
def canonicalCommit (canonical repository sha : String) : CandidateInput :=
  .commit (some (asciiLowercase sha)) none
    (if asciiLowercase repository = asciiLowercase canonical then none else some (asciiLowercase repository))

theorem toList_githubUrl (repository sha : String) :
    (githubUrl (repository ++ "/commit/" ++ sha)).toList =
      "https://github.com/".toList ++ (repository.toList ++ ("/commit/".toList ++ sha.toList)) := by
  unfold githubUrl
  -- the texts between the parts play no role
  generalize "https://github.com/" = host
  generalize "/commit/" = mark
  simp only [String.toList_append,List.append_assoc]

theorem commitOfUrl_url (repository : String) {sha : String} (full : IsSha sha) :
    commitOfUrl (githubUrl (repository ++ "/commit/" ++ sha)) = some (repository,sha) := by
  have few : ("/commit/".toList ++ sha.toList).tail.count '/' < "/commit/".toList.count '/' := by
    have none_ : sha.toList.count '/' = 0 := List.count_eq_zero.mpr (full.not_mem (by decide))
    have mark : "/commit/".toList = ['/','c','o','m','m','i','t','/'] := rfl
    simp [mark,none_]
  unfold commitOfUrl
  rw [toList_githubUrl]
  generalize "https://github.com/".toList = host
  rw [List.isPrefixOf?_eq_some_iff_append_eq.mpr rfl,Option.bind_some,rsplitOnce_append _ '/' few]
  simp only [Option.map_some,String.ofList_toList]

theorem commitOfUrl_sound (read : commitOfUrl url = some (repository,sha)) :
    url = githubUrl (repository ++ "/commit/" ++ sha) := by
  rw [commitOfUrl,Option.map_eq_some_iff] at read
  obtain ⟨⟨before,after⟩,found,same⟩ := read
  rw [Option.bind_eq_some_iff] at found
  obtain ⟨path,starts,split⟩ := found
  obtain ⟨rfl,rfl⟩ := Prod.mk.inj same
  have whole := List.isPrefixOf?_eq_some_iff_append_eq.mp starts
  have source : (String.ofList before).toList = before := String.toList_ofList
  have sha : (String.ofList after).toList = after := String.toList_ofList
  rw [← String.toList_inj,toList_githubUrl,← whole,rsplitOnce_sound split,source,sha,List.append_assoc]

theorem forkOf_named (canonical : String) {repository : String} (proper : isGithubRepository repository = true) :
    forkOf canonical (some repository) =
      .ok (if asciiLowercase repository = asciiLowercase canonical then none else some (asciiLowercase repository)) := by
  rw [forkOf,ensure,if_pos proper]
  rfl

theorem Spelling.normalized {canonical : String}
    (spelling : Spelling canonical input repository sha) :
    input.normalized canonical = .ok (canonicalCommit canonical repository sha) := by
  cases spelling with
  | omitted full =>
    simp [CandidateInput.normalized,requestedCommit,fullSha_eq.mpr ⟨full,rfl⟩,require,forkOf,canonicalCommit]
  | named proper full =>
    simp [CandidateInput.normalized,requestedCommit,fullSha_eq.mpr ⟨full,rfl⟩,require,forkOf_named _ proper,
      canonicalCommit]
  | url proper full =>
    simp [CandidateInput.normalized,requestedCommit,commitOfUrl_url _ full,fullSha_eq.mpr ⟨full,rfl⟩,require,
      forkOf_named _ proper,canonicalCommit]

/-- The canonical request is a spelling too. -/
theorem Spelling.lower {canonical repository sha : String} {input : CandidateInput}
    (spelling : Spelling canonical input repository sha) :
    ∃ owner, asciiLowercase owner = asciiLowercase repository ∧
      Spelling canonical (canonicalCommit canonical repository sha) owner (asciiLowercase sha) := by
  have fork (proper : isGithubRepository repository = true) (full : IsSha sha) :
      ∃ owner, asciiLowercase owner = asciiLowercase repository ∧
        Spelling canonical (canonicalCommit canonical repository sha) owner (asciiLowercase sha) := by
    unfold canonicalCommit
    split
    · rename_i same
      exact ⟨canonical,same.symm,.omitted full.lower⟩
    · exact ⟨asciiLowercase repository,asciiLowercase_asciiLowercase repository,
        .named ((isGithubRepository_lower repository).trans proper) full.lower⟩
  cases spelling with
  | omitted full =>
    refine ⟨canonical,rfl,?_⟩
    rw [canonicalCommit,if_pos rfl]
    exact .omitted full.lower
  | named proper full => exact fork proper full
  | url proper full => exact fork proper full

/-- A request for a commit that is accepted spells a commit of some repository. -/
theorem spelling_of_accepted {canonical : String} {sha url source : Option String}
    (accepted : (CandidateInput.commit sha url source).normalized canonical = .ok result) :
    ∃ repository id, Spelling canonical (.commit sha url source) repository id := by
  simp only [CandidateInput.normalized,bind_ok,require_ok] at accepted
  obtain ⟨⟨value,named⟩,requested,id,read,fork,chosen,-⟩ := accepted
  have full : IsSha value := (fullSha_eq.mp read).1
  have proper : ∀ repository, named = some repository → isGithubRepository repository = true := by
    rintro repository rfl
    simp only [forkOf,bind_ok,ensure_ok] at chosen
    obtain ⟨-,proper,-⟩ := chosen
    exact proper
  cases sha with
  | some sha =>
    cases url with
    | some url => cases requested
    | none =>
      cases requested
      cases source with
      | none => exact ⟨canonical,_,.omitted full⟩
      | some repository => exact ⟨repository,_,.named (proper repository rfl) full⟩
  | none =>
    cases url with
    | none => cases requested
    | some url =>
      cases source with
      | some source => cases requested
      | none =>
        simp only [requestedCommit,bind_ok,require_ok] at requested
        obtain ⟨⟨repository,sha⟩,split,same⟩ := requested
        cases same
        rw [commitOfUrl_sound split]
        exact ⟨repository,_,.url (proper repository rfl) full⟩

/-- Two requests are one exactly if their commits and their repositories are, in letters of either case. -/
theorem canonicalCommit_inj {canonical other id : String} :
    canonicalCommit canonical repository sha = canonicalCommit canonical other id ↔
      asciiLowercase repository = asciiLowercase other ∧ asciiLowercase sha = asciiLowercase id := by
  unfold canonicalCommit
  rw [CandidateInput.commit.injEq,Option.some.injEq]
  constructor
  · rintro ⟨commits,-,forks⟩
    refine ⟨?_,commits⟩
    split at forks <;> split at forks
    · rename_i first second
      exact first.trans second.symm
    · cases forks
    · cases forks
    · exact Option.some.inj forks
  · rintro ⟨repositories,commits⟩
    exact ⟨commits,rfl,by rw [repositories]⟩

/-! ### Prerequisites -/

theorem prerequisiteSet_eq {list : List String} :
    prerequisiteSet list = some set ↔
      ∃ shas, list.mapM fullSha = some shas ∧ .ofList shas = set ∧ set.size ≤ candidateBundleMaxPrerequisites := by
  rw [prerequisiteSet,Option.filter_eq_some_iff,Option.map_eq_some_iff]
  simp only [decide_eq_true_eq]
  exact ⟨fun ⟨⟨shas,read,same⟩,few⟩ => ⟨shas,read,same,few⟩,fun ⟨shas,read,same,few⟩ => ⟨⟨shas,read,same⟩,few⟩⟩

theorem ofList_toList (set : Std.ExtTreeSet String) : .ofList set.toList = set := by
  refine Std.ExtTreeSet.ext_mem fun sha => ?_
  rw [Std.ExtTreeSet.mem_ofList,List.contains_iff_mem,Std.ExtTreeSet.mem_toList]

/-- A set of full commits is the set of what it lists. -/
theorem prerequisiteSet_toList (full : ∀ sha ∈ set, fullSha sha = some sha)
    (few : set.size ≤ candidateBundleMaxPrerequisites) : prerequisiteSet set.toList = some set := by
  have read : set.toList.mapM fullSha = some set.toList :=
    mapM_eq_some.mpr (List.forall₂_same.mpr fun sha member => full sha (Std.ExtTreeSet.mem_toList.mp member))
  exact prerequisiteSet_eq.mpr ⟨set.toList,read,ofList_toList set,few⟩

theorem prerequisiteSet_full {list : List String}
    (read : prerequisiteSet list = some set) : ∀ sha ∈ set, fullSha sha = some sha := by
  obtain ⟨shas,all,rfl,-⟩ := prerequisiteSet_eq.mp read
  intro sha member
  rw [Std.ExtTreeSet.mem_ofList,List.contains_iff_mem] at member
  obtain ⟨value,-,same⟩ := exists_of_mem_right (mapM_eq_some.mp all) member
  exact fullSha_fixed same

theorem prerequisiteSet_fixed {list : List String}
    (read : prerequisiteSet list = some set) : prerequisiteSet set.toList = some set := by
  obtain ⟨-,-,-,few⟩ := prerequisiteSet_eq.mp read
  exact prerequisiteSet_toList (prerequisiteSet_full read) few

/-! ### Normalization keeps what it chose -/

/-- A bundle is normalized without regard to the repository. -/
theorem bundle_normalized {path sha256 : Option String}
    (repository other : String) :
    (CandidateInput.bundle path head sha256 prerequisites).normalized repository =
      (CandidateInput.bundle path head sha256 prerequisites).normalized other := by
  cases path <;> cases sha256 <;> rfl

theorem bundle_fixed {path sha256 : Option String}
    (accepted : (CandidateInput.bundle path head sha256 prerequisites).normalized repository = .ok result) :
    result.normalized repository = .ok result := by
  match path,sha256,accepted with
  | none,some sha256,accepted =>
    simp only [CandidateInput.normalized,bind_ok,require_ok,ensure_ok,pure_ok] at accepted
    obtain ⟨id,read,-,⟨size,digits⟩,set,collected,rfl⟩ := accepted
    have proper : byteLength (asciiLowercase sha256) = 64 ∧ (asciiLowercase sha256).toList.all isHexDigit = true := by
      rw [byteLength_asciiLowercase,all_isHexDigit_lower]
      exact ⟨size,digits⟩
    simp only [CandidateInput.normalized,fullSha_fixed read,prerequisiteSet_fixed collected,require_some,ok_bind,
      ensure_of proper,asciiLowercase_asciiLowercase]
    rfl

theorem normalized_fixed
    (accepted : input.normalized repository = .ok result) : result.normalized repository = .ok result := by
  cases input with
  | pullRequest url =>
    simp only [CandidateInput.normalized,bind_ok,require_ok,pure_ok] at accepted
    obtain ⟨number,read,rfl⟩ := accepted
    simp only [CandidateInput.normalized,pullNumber_print _ (pullNumber_positive read),require_some,ok_bind]
    rfl
  | commit sha url source =>
    obtain ⟨owner,id,spelling⟩ := spelling_of_accepted accepted
    rw [spelling.normalized] at accepted
    cases accepted
    obtain ⟨other,same,canonical⟩ := spelling.lower
    rw [canonical.normalized,canonicalCommit_inj.mpr ⟨same,asciiLowercase_asciiLowercase id⟩]
  | tag name =>
    simp only [CandidateInput.normalized,bind_ok,ensure_ok,pure_ok] at accepted
    obtain ⟨-,proper,rfl⟩ := accepted
    simp only [CandidateInput.normalized,ensure_of proper,ok_bind]
    rfl
  | bundle path head sha256 prerequisites => exact bundle_fixed accepted

/-! ### The blank line behind a header -/

theorem blankAt_sound {limit stop : Nat} {bytes : Bytes} (found : blankAt limit bytes = some stop) :
    bytes = bytes.take stop ++ 10 :: 10 :: bytes.drop (stop + 2) ∧ ¬ [10,10] <:+: bytes.take stop ++ [10] := by
  induction limit generalizing bytes stop with
  | zero => cases found
  | succ limit ih =>
    match bytes,found with
    | a :: b :: rest,found =>
      rw [blankAt] at found
      split at found
      · rename_i blank
        obtain ⟨rfl,rfl⟩ := blank
        cases found
        exact ⟨rfl,by simp [List.infix_cons_iff]⟩
      · rename_i other
        obtain ⟨before,later,rfl⟩ := Option.map_eq_some_iff.mp found
        obtain ⟨whole,first⟩ := ih later
        refine ⟨congrArg (a :: ·) whole,fun blank => ?_⟩
        rw [List.take_succ_cons,List.cons_append,List.infix_cons_iff] at blank
        cases blank with
        | inl starts =>
          obtain ⟨tail,pair⟩ := starts
          rw [List.cons_append,List.cons.injEq] at pair
          refine other ⟨pair.1.symm,?_⟩
          cases before with
          | zero => exact (List.cons.inj whole).1
          | succ before => exact (List.cons.inj pair.2).1.symm
        | inr below => exact first below

/-! ### The lines of a header -/

/-- A line of a header that names a prerequisite: its commit ends at the first blank. -/
def PrerequisiteLine (line : List Char) (sha : String) : Prop :=
  ∃ id rest, line = '-' :: (id ++ rest) ∧ ' ' ∉ id ∧ (rest = [] ∨ rest.head? = some ' ') ∧
    IsSha (.ofList id) ∧ asciiLowercase (.ofList id) = sha

/-- A line of a header that names a head. -/
def HeadLine (line : List Char) (sha : String) : Prop :=
  ∃ id name, line = id ++ ' ' :: name ∧ name ≠ [] ∧ IsSha (.ofList id) ∧ asciiLowercase (.ofList id) = sha

theorem splitOnce_blank {id name : List Char} :
    splitOnce [' '] line = some (id,name) ↔ line = id ++ ' ' :: name ∧ ' ' ∉ id := by
  induction line generalizing id with
  | nil => simp [splitOnce]
  | cons c rest ih =>
    rw [splitOnce]
    by_cases blank : c = ' '
    · subst blank
      constructor
      · intro split
        cases split
        exact ⟨rfl,List.not_mem_nil⟩
      · rintro ⟨same,absent⟩
        cases id with
        | nil =>
          cases same
          rfl
        | cons d id =>
          rw [List.cons_append,List.cons.injEq] at same
          exact absurd (same.1 ▸ List.mem_cons_self) absent
    · have other : [' '].isPrefixOf (c :: rest) = false := by
        simpa [List.isPrefixOf] using Ne.symm blank
      rw [other,if_neg Bool.false_ne_true]
      constructor
      · intro split
        obtain ⟨⟨before,after⟩,found,same⟩ := Option.map_eq_some_iff.mp split
        cases same
        obtain ⟨rfl,absent⟩ := ih.mp found
        exact ⟨rfl,by simpa [Ne.symm blank] using absent⟩
      · rintro ⟨same,absent⟩
        cases id with
        | nil => exact absurd (List.cons.inj same).1 blank
        | cons d id =>
          obtain ⟨rfl,below⟩ := List.cons.inj same
          rw [ih.mpr ⟨below,fun member => absent (List.mem_cons_of_mem c member)⟩]
          rfl

theorem headOf_eq : headOf line = some sha ↔ HeadLine line sha := by
  simp only [headOf,Option.bind_eq_some_iff,Option.filter_eq_some_iff,fullSha_eq,Prod.exists,splitOnce_blank,
    decide_eq_true_eq]
  constructor
  · rintro ⟨id,name,⟨⟨same,-⟩,some_⟩,full,lower⟩
    exact ⟨id,name,same,some_,full,lower⟩
  · rintro ⟨id,name,same,some_,full,lower⟩
    have absent : ' ' ∉ id := by simpa using full.not_mem (c := ' ') (by decide)
    exact ⟨id,name,⟨⟨same,absent⟩,some_⟩,full,lower⟩

theorem prerequisiteOf_eq :
    prerequisiteOf rest = some sha ↔ PrerequisiteLine ('-' :: rest) sha := by
  rw [prerequisiteOf,fullSha_eq]
  constructor
  · rintro ⟨full,lower⟩
    have absent : ' ' ∉ rest.takeWhile (· != ' ') := by simpa using full.not_mem (c := ' ') (by decide)
    refine ⟨rest.takeWhile (· != ' '),rest.dropWhile (· != ' '),?_,absent,?_,full,lower⟩
    · rw [List.takeWhile_append_dropWhile]
    · have stops := List.head?_dropWhile_not (· != ' ') rest
      cases left : rest.dropWhile (· != ' ') with
      | nil => exact .inl rfl
      | cons c behind => exact .inr (by simpa [left] using stops)
  · rintro ⟨id,behind,same,absent,stops,full,lower⟩
    obtain ⟨-,rfl⟩ := List.cons.inj same
    have inside : ∀ c ∈ id, (c != ' ') = true := fun c member => by
      rw [bne_iff_ne]
      rintro rfl
      exact absent member
    have none_ : behind.takeWhile (· != ' ') = [] := by
      cases behind with
      | nil => rfl
      | cons c behind => simp_all
    rw [List.takeWhile_append_of_pos inside,none_,List.append_nil]
    exact ⟨full,lower⟩

theorem HeadLine.first (line : HeadLine (c :: rest) sha) :
    isHexDigit c = true := by
  obtain ⟨id,name,same,-,full,-⟩ := line
  cases id with
  | nil => cases full.1
  | cons d id =>
    rw [(List.cons.inj same).1]
    exact List.all_eq_true.mp full.2 d (by simp)

/-- What one more line adds to a header. -/
structure Adds (header next : BundleHeader) (line : List Char) : Prop where
  heads : ∀ sha, sha ∈ next.heads ↔ sha ∈ header.heads ∨ HeadLine line sha
  prerequisites : ∀ sha, sha ∈ next.prerequisites ↔ sha ∈ header.prerequisites ∨ PrerequisiteLine line sha

theorem BundleHeader.read_adds {next : BundleHeader}
    (read : header.read version line = .ok next) : Adds header next line := by
  unfold BundleHeader.read at read
  split at read
  · simp only [bind_ok,pure_ok] at read
    obtain ⟨-,-,rfl⟩ := read
    constructor
    · intro sha
      refine (or_iff_left fun head => ?_).symm
      cases head.first
    · intro sha
      refine (or_iff_left ?_).symm
      rintro ⟨id,rest,same,-⟩
      cases same
  · rename_i rest
    simp only [bind_ok,require_ok,pure_ok] at read
    obtain ⟨id,found,rfl⟩ := read
    constructor
    · intro sha
      refine (or_iff_left fun head => ?_).symm
      cases head.first
    · intro sha
      rw [← prerequisiteOf_eq,found,Std.ExtTreeSet.mem_insert,compare_eq_iff_eq,Option.some.injEq,or_comm]
  · rename_i dashed
    simp only [bind_ok,require_ok,pure_ok] at read
    obtain ⟨id,found,rfl⟩ := read
    constructor
    · intro sha
      rw [← headOf_eq,found,Std.ExtTreeSet.mem_insert,compare_eq_iff_eq,Option.some.injEq,or_comm]
    · intro sha
      refine (or_iff_left ?_).symm
      rintro ⟨id,rest,same,-⟩
      exact dashed _ same

theorem BundleHeader.readAll {list : List (List Char)} {last : BundleHeader}
    (read : list.foldlM (BundleHeader.read version) header = .ok last) :
    (∀ sha, sha ∈ last.heads ↔ sha ∈ header.heads ∨ ∃ line ∈ list, HeadLine line sha) ∧
      ∀ sha, sha ∈ last.prerequisites ↔ sha ∈ header.prerequisites ∨ ∃ line ∈ list, PrerequisiteLine line sha := by
  induction list generalizing header with
  | nil =>
    cases read
    simp
  | cons line rest ih =>
    rw [List.foldlM_cons,bind_ok] at read
    obtain ⟨next,first,others⟩ := read
    have adds := read_adds first
    obtain ⟨heads,prerequisites⟩ := ih others
    constructor
    · intro sha
      simp [heads sha,adds.heads sha,or_assoc]
    · intro sha
      simp [prerequisites sha,adds.prerequisites sha,or_assoc]

/-- What a bundle is admitted as: one of the heads in its header, and the
    prerequisites there, in order and each of them once. -/
structure Describes [Hash] (bytes : Bytes) (input : CandidateInput) : Prop where
  described : ∃ (text : String) (version : List Char) (entries : List (List Char)) (pack : Bytes) (head : String)
      (prerequisites : List String),
    bytes = text.toUTF8.data.toList ++ 10 :: 10 :: ("PACK".toUTF8.data.toList ++ pack) ∧
    ¬ [10,10] <:+: text.toUTF8.data.toList ++ [10] ∧
    lines text.toList = version :: entries ∧
    input = .bundle none head (some (asciiLowercase (Hash.sha256 bytes))) prerequisites ∧
    (∃ line ∈ entries, HeadLine line head) ∧
    (∀ sha, sha ∈ prerequisites ↔ ∃ line ∈ entries, PrerequisiteLine line sha) ∧
    prerequisites.Pairwise fun sha later => compare sha later = .lt

theorem headerText_sound {bytes : Bytes} {text : String} (read : headerText bytes = .ok text) :
    (∃ pack, bytes = text.toUTF8.data.toList ++ 10 :: 10 :: ("PACK".toUTF8.data.toList ++ pack)) ∧
      ¬ [10,10] <:+: text.toUTF8.data.toList ++ [10] := by
  simp only [headerText,bind_ok,ensure_ok,require_ok] at read
  obtain ⟨-,-,stop,found,-,⟨pack,starts⟩,decoded⟩ := read
  have taken : bytes.take stop = text.toUTF8.data.toList := by
    unfold String.fromUTF8? at decoded
    split at decoded
    · cases decoded
      exact (List.toList_data_toByteArray).symm
    · cases decoded
  obtain ⟨whole,first⟩ := blankAt_sound found
  rw [taken] at first
  rw [taken,← starts] at whole
  exact ⟨⟨pack,whole⟩,first⟩

theorem readHeader_sound {text : String} (read : readHeader text = .ok header) :
    ∃ version entries, lines text.toList = version :: entries ∧
      (∀ sha, sha ∈ header.heads ↔ ∃ line ∈ entries, HeadLine line sha) ∧
      ∀ sha, sha ∈ header.prerequisites ↔ ∃ line ∈ entries, PrerequisiteLine line sha := by
  simp only [readHeader,bind_ok,require_ok] at read
  obtain ⟨number,known,all⟩ := read
  cases split : lines text.toList with
  | nil =>
    rw [split] at known
    cases known
  | cons version entries =>
    rw [split] at all
    obtain ⟨heads,prerequisites⟩ := BundleHeader.readAll all
    exact ⟨version,entries,rfl,by simpa using heads,by simpa using prerequisites⟩

theorem fromBundle_describes [Hash] {bytes : Bytes} {commit : String} {result : CandidateInput}
    (admitted : CandidateInput.fromBundle bytes commit = .ok result) : Describes bytes result := by
  simp only [CandidateInput.fromBundle,bind_ok,require_ok,ensure_ok] at admitted
  obtain ⟨text,found,header,readAs,head,full,-,member,normalized⟩ := admitted
  obtain ⟨⟨pack,whole⟩,first⟩ := headerText_sound found
  obtain ⟨version,entries,split,heads,prerequisites⟩ := readHeader_sound readAs
  have fixed : ∀ sha ∈ header.prerequisites.toList, fullSha sha = some sha := by
    intro sha listed
    obtain ⟨line,-,id,rest,-,-,-,proper,rfl⟩ := (prerequisites sha).mp (Std.ExtTreeSet.mem_toList.mp listed)
    exact fullSha_fixed (fullSha_eq.mpr ⟨proper,rfl⟩)
  simp only [CandidateInput.normalized,bind_ok,require_ok,ensure_ok,pure_ok,fullSha_fixed full,Option.some.injEq]
    at normalized
  obtain ⟨_,rfl,-,-,set,collected,rfl⟩ := normalized
  obtain ⟨shas,all,rfl,-⟩ := prerequisiteSet_eq.mp collected
  rw [mapM_eq_some.mpr (List.forall₂_same.mpr fixed)] at all
  cases all
  rw [ofList_toList]
  refine ⟨text,version,entries,pack,head,header.prerequisites.toList,whole,first,split,rfl,(heads head).mp member,?_,
    Std.ExtTreeSet.ordered_toList⟩
  intro sha
  rw [Std.ExtTreeSet.mem_toList,prerequisites sha]

/-- Requests for candidates have one canonical form. What is normalized once is
    normalized; a bundle is admitted in that form, under a head and with exactly the
    prerequisites of its header; and two requests for commits come out the same
    exactly if they spell one commit of one repository. -/
theorem candidate_sources_canonical [Hash] :
    (∀ (input result : CandidateInput) (repository : String),
      input.normalized repository = .ok result → result.normalized repository = .ok result) ∧
    (∀ (bytes : Bytes) (commit : String) (result : CandidateInput),
      CandidateInput.fromBundle bytes commit = .ok result →
        (∀ repository, result.normalized repository = .ok result) ∧ Describes bytes result) ∧
    (∀ (canonical : String) (sha url source : Option String) (result : CandidateInput),
      (CandidateInput.commit sha url source).normalized canonical = .ok result →
        ∃ repository id, Spelling canonical (.commit sha url source) repository id) ∧
    (∀ (canonical repository other id sha : String) (input request : CandidateInput),
      Spelling canonical input repository id → Spelling canonical request other sha →
        (∃ result, input.normalized canonical = .ok result) ∧
        (input.normalized canonical = request.normalized canonical ↔
          asciiLowercase repository = asciiLowercase other ∧ asciiLowercase id = asciiLowercase sha)) := by
  refine ⟨fun _ _ _ => normalized_fixed,fun bytes commit result admitted => ⟨fun repository => ?_,?_⟩,
    fun _ _ _ _ _ => spelling_of_accepted,?_⟩
  · obtain ⟨_,_,_,_,_,_,-,-,-,rfl,-⟩ := (fromBundle_describes admitted).described
    rw [bundle_normalized repository ""]
    simp only [CandidateInput.fromBundle,bind_ok] at admitted
    obtain ⟨_,_,_,_,_,_,_,_,normalized⟩ := admitted
    exact normalized_fixed normalized
  · exact fromBundle_describes admitted
  · intro canonical repository other id sha input request first second
    rw [first.normalized,second.normalized,Except.ok.injEq,canonicalCommit_inj]
    exact ⟨⟨_,rfl⟩,Iff.rfl⟩

/-- The canonical repository named in other letters, and omitted. -/
theorem candidate_sources_canonical_cdk :
    (CandidateInput.commit (some "ABCDEFABCDEFABCDEFABCDEFABCDEFABCDEF0123") none (some "CashuBTC/cdk")).normalized
        "cashubtc/cdk" =
      (CandidateInput.commit (some "abcdefabcdefabcdefabcdefabcdefabcdef0123") none none).normalized
        "cashubtc/cdk" := by
  have upper : IsSha "ABCDEFABCDEFABCDEFABCDEFABCDEFABCDEF0123" := by
    unfold IsSha
    decide +kernel
  have lower : IsSha "abcdefabcdefabcdefabcdefabcdefabcdef0123" := by
    unfold IsSha
    decide +kernel
  have proper : isGithubRepository "CashuBTC/cdk" = true := by decide +kernel
  have repositories : asciiLowercase "CashuBTC/cdk" = asciiLowercase "cashubtc/cdk" := by decide +kernel
  have commits : asciiLowercase "ABCDEFABCDEFABCDEFABCDEFABCDEFABCDEF0123" =
      asciiLowercase "abcdefabcdefabcdefabcdefabcdefabcdef0123" := by decide +kernel
  obtain ⟨-,-,-,distinct⟩ := @candidate_sources_canonical ⟨fun _ => ""⟩
  exact (distinct _ _ _ _ _ _ _ (.named proper upper) (.omitted lower)).2.mpr ⟨repositories,commits⟩

end Proofstorm.Candidates
