import Proofstorm.Following
import Proofstorm.Workspace.Delivered

/-!
Files, directories and tasks are read to their end in pages. A page of a file ends
at the end of a character, however the bytes were cut, so the pages together are the
text. A page of a listing ends at the name that the next one starts behind.
-/
namespace Proofstorm.Workspace
open Proofstorm.Actions (cost)
open Proofstorm.Core (Json)
open Proofstorm.Following
open Proofstorm.Upload (Failure byteLength)

/-! ### A file -/

theorem validatePath_bytes {path : String} (valid : Upload.validatePath path = .ok ()) : byteLength path ≤ 512 := by
  rw [Upload.validatePath,ensure_ok] at valid
  by_contra long
  exact valid (.inr (.inl (Nat.lt_of_not_le long)))

theorem localPath_bytes {root : Tree} {path : String} {node : Option Tree} (found : localPath root path = .ok node) :
    byteLength path ≤ 512 := by
  obtain ⟨_,valid,_⟩ := bind_ok.mp found
  exact validatePath_bytes valid

theorem byteLength_ofList (chars : List Char) : byteLength (.ofList chars) = (Utf8.encode chars).length := by
  rw [Utf8.encode_length,byteLength,String.toList_ofList]

/-- The bytes that are shown: those of the characters that were read whole. -/
theorem wholeBytes_encode {kept : List Char} {bytes : List UInt8} {offset length : Nat} (room : length < 2 ^ 63)
    (left : bytes = [] ∨ (∃ c, Utf8.Cut c bytes) ∧ offset + (Utf8.encode kept ++ bytes).length < length) :
    wholeBytes offset length (Utf8.encode kept ++ bytes) = Utf8.encode kept := by
  by_cases none_ : bytes = []
  · rw [none_,List.append_nil,wholeBytes,Utf8.fromUtf8_encode]
  · obtain ⟨⟨c,cut⟩,behind⟩ := left.resolve_left none_
    have within : saturatingAdd offset (Utf8.encode kept ++ bytes).length < length := by
      unfold saturatingAdd
      omega
    rw [wholeBytes,Utf8.fromUtf8_cut kept cut none_]
    dsimp only
    rw [if_pos within,List.take_left]

section
variable {root : Tree} {path : String} {text : List Char} {mode : Nat}

/-- An offset between two characters. -/
def Boundary (text : List Char) (offset : Nat) : Prop :=
  ∃ before rest, text = before ++ rest ∧ offset = (Utf8.encode before).length

theorem readFile_advances (found : localPath root path = .ok (some (.file (Utf8.encode text) mode)))
    (room : (Utf8.encode text).length < 2 ^ 63) {offset : Nat} (here : Boundary text offset) :
    ∃ reply, Following.Advances (readFile root path) ReadReply.nextOffset (fun reply => Utf8.encode reply.content.toList)
      (Boundary text) (fun offset => (Utf8.encode text).drop offset) offset reply ∧ Delivered reply.toJson := by
  obtain ⟨before,rest,rfl,rfl⟩ := here
  obtain ⟨kept,others,bytes,rfl,taken,left⟩ := Utf8.take_encode rest readBytes
  have dropped : (Utf8.encode (before ++ (kept ++ others))).drop (Utf8.encode before).length =
      Utf8.encode (kept ++ others) := by
    rw [Utf8.encode_append,List.drop_left]
  have total : (Utf8.encode (before ++ (kept ++ others))).length =
      (Utf8.encode before).length + (Utf8.encode kept).length + (Utf8.encode others).length := by
    simp only [Utf8.encode_append,List.length_append]
    omega
  have count := congrArg List.length taken
  rw [List.length_take,List.length_append,Utf8.encode_append,List.length_append] at count
  have behind : bytes = [] ∨ (∃ c, Utf8.Cut c bytes) ∧ bytes.length < (Utf8.encode others).length ∧ bytes.length < 4 := by
    refine left.imp_right fun ⟨c,after,same,cut⟩ => ⟨⟨c,cut⟩,?_,?_⟩
    · rw [same,Utf8.encode_cons,List.length_append,Utf8.utf8EncodeChar_length]
      exact Nat.lt_of_lt_of_le cut.2 (Nat.le_add_right _ _)
    · exact Nat.lt_of_lt_of_le cut.2 c.utf8Size_le_four
  have shown : wholeBytes (Utf8.encode before).length (Utf8.encode (before ++ (kept ++ others))).length
      (Utf8.encode kept ++ bytes) = Utf8.encode kept := by
    refine wholeBytes_encode room (behind.imp_right fun ⟨cut,short,_⟩ => ⟨cut,?_⟩)
    rw [List.length_append]
    omega
  have onward : saturatingAdd (Utf8.encode before).length (Utf8.encode kept).length =
      (Utf8.encode before).length + (Utf8.encode kept).length := by
    unfold saturatingAdd
    omega
  refine ⟨⟨path,(Utf8.encode before).length,(Utf8.encode kept).length,.ofList kept,
    if (Utf8.encode before).length + (Utf8.encode kept).length < (Utf8.encode (before ++ (kept ++ others))).length
    then some ((Utf8.encode before).length + (Utf8.encode kept).length) else none⟩,⟨?_,?_,?_⟩,?_⟩
  · rw [readFile,found,ok_bind,require_some,ok_bind]
    dsimp only
    rw [ensure_of (by omega),dropped,taken,shown,onward,Utf8.fromUtf8Lossy_encode]
    rfl
  · intro following next
    dsimp only at next ⊢
    split_ifs at next with more
    cases next
    rw [String.toList_ofList,dropped]
    refine ⟨⟨before ++ kept,others,(List.append_assoc ..).symm,by rw [Utf8.encode_append,List.length_append]⟩,?_,?_⟩
    · -- A character takes four bytes at most, so one of those that are left was read.
      intro nothing
      rw [nothing,List.length_nil] at count total more
      unfold readBytes at count
      obtain rfl | ⟨_,short,few⟩ := behind
      · rw [List.length_nil] at count
        omega
      · omega
    · rw [← List.append_assoc before,Utf8.encode_append (before ++ kept),Utf8.encode_append kept]
      rw [List.drop_left' (by rw [Utf8.encode_append,List.length_append])]
  · intro next
    dsimp only at next ⊢
    split_ifs at next with more
    have nothing : Utf8.encode others = [] := List.length_eq_zero_iff.mp (by omega)
    rw [String.toList_ofList,dropped,Utf8.encode_append,nothing,List.append_nil]
  · refine deliver_fits (ReadReply.Bounded.fits ⟨localPath_bytes found,?_,?_,?_,?_⟩)
    · dsimp only
      unfold readBytes at count ⊢
      omega
    · dsimp only
      rw [byteLength_ofList]
      unfold readBytes at count ⊢
      omega
    · dsimp only
      omega
    · intro next given
      dsimp only at given
      split_ifs at given
      · cases given
        omega
      · cases given

/-- A file is read whole: the client comes to its end, with its text, and no reply is
    held back. -/
theorem readFile_all (found : localPath root path = .ok (some (.file (Utf8.encode text) mode)))
    (room : (Utf8.encode text).length < 2 ^ 63) :
    ∃ replies, Follows (readFile root path) ReadReply.nextOffset 0 replies ∧
      replies.flatMap (fun reply => reply.content.toList) = text ∧ ∀ reply ∈ replies, Delivered reply.toJson := by
  obtain ⟨replies,follows,all,each⟩ := follows_all (fun offset here => readFile_advances found room here)
    (⟨[],text,rfl,rfl⟩ : Boundary text 0)
  rw [Utf8.encode_flatMap] at all
  exact ⟨replies,follows,Utf8.encode_inj all,each⟩
end

/-! ### Listings -/

/-- Names in the order of their pages. -/
def inOrder (names : List String) : List String := names.insertionSort (· ≤ ·)

variable {names all : List String}

theorem inOrder_sorted (distinct : names.Nodup) : (inOrder names).Pairwise (· < ·) := by
  have perm := List.perm_insertionSort (· ≤ ·) names
  have sorted : (inOrder names).Pairwise (· ≤ ·) := List.pairwise_insertionSort (· ≤ ·) names
  have apart : (inOrder names).Pairwise (· ≠ ·) := perm.nodup_iff.mpr distinct
  exact (sorted.and apart).imp fun both => lt_of_le_of_ne both.1 both.2

/-- What is listed behind a cursor is behind it in the whole listing. -/
theorem inOrder_filter (distinct : names.Nodup) (cursor : Option String) :
    inOrder (names.filter fun name => ∀ first ∈ cursor, first < name) = after (inOrder names) cursor := by
  have kept : after (inOrder names) cursor = (inOrder names).filter fun name => ∀ first ∈ cursor, first < name := by
    cases cursor with
    | none => simp [after]
    | some first => simp [after]
  rw [kept]
  have left := inOrder_sorted (distinct.filter fun name => decide (∀ first ∈ cursor, first < name))
  have right := (inOrder_sorted distinct).filter fun name => decide (∀ first ∈ cursor, first < name)
  refine List.Perm.eq_of_pairwise (fun _ _ _ _ forward back => absurd (forward.trans back) (lt_irrefl _)) left right ?_
  exact (List.perm_insertionSort _ _).trans ((List.perm_insertionSort _ _).symm.filter _)

theorem intoString_osName (name : String) : intoString (osName name) = some name := by
  rw [intoString,osName,Utf8.fromUtf8_encode,String.ofList_toList]
  rfl

theorem collectNames_texts (cursor : Option String) (texts : List String) {names : List String}
    (small : names.length + texts.length ≤ 4096) : collectNames cursor names (texts.map osName) =
      .ok (names ++ texts.filter fun name => name ≠ ".proofstorm" ∧ ∀ first ∈ cursor, first < name) := by
  induction texts generalizing names with
  | nil => rw [List.map_nil,collectNames,List.filter_nil,List.append_nil]; rfl
  | cons text rest ih =>
    rw [List.length_cons] at small
    rw [List.map_cons,collectNames,intoString_osName,require_some,ok_bind]
    dsimp only
    by_cases shown : text ≠ ".proofstorm" ∧ ∀ first ∈ cursor, first < text
    · have room : (names ++ [text]).length ≤ 4096 := by
        rw [List.length_append,List.length_singleton]
        omega
      rw [if_pos shown,ensure_of room,ok_bind,ih (by rw [List.length_append,List.length_singleton]; omega),
        List.filter_cons,if_pos (by simpa using shown),List.append_assoc]
      rfl
    · rw [if_neg shown,ensure_of (by omega),ok_bind,ih (by omega),List.filter_cons,if_neg (by simpa using shown)]

/-- A page of a listing: its first entries, and the last of them as the cursor where there are more. -/
theorem page_onward (sorted : all.Pairwise (· < ·)) {cursor : Option String} {count : Nat}
    {following : String}
    (next : (if (after all cursor).length > count + 1 then (after all cursor)[count]? else none) = some following) :
    (after all cursor).take (count + 1) ≠ [] ∧
      after all cursor = (after all cursor).take (count + 1) ++ after all (some following) := by
  split_ifs at next with more
  refine ⟨fun nothing => ?_,after_take sorted next⟩
  have length := congrArg List.length nothing
  rw [List.length_take,List.length_nil] at length
  omega

theorem page_done {cursor : Option String} {count : Nat}
    (next : (if (after all cursor).length > count + 1 then (after all cursor)[count]? else none) = none) :
    (after all cursor).take (count + 1) = after all cursor := by
  split_ifs at next with more
  · rw [List.getElem?_eq_none_iff] at next
    omega
  · exact List.take_of_length_le (by omega)

section
variable {root : Tree} {path : String} {entries : Listing} {texts : List String}

/-- What a listing shows of a directory. -/
def visible (texts : List String) : List String := inOrder (texts.filter (· ≠ ".proofstorm"))

theorem listDirectory_page (there : listedPath root path = .ok (some (.directory entries))) (utf8 : entries.names = texts.map osName)
    (distinct : texts.Nodup) (small : texts.length ≤ 4096) (cursor : Option String) :
    listDirectory root path cursor = .ok ⟨path,(after (visible texts) cursor).take 16,
      if (after (visible texts) cursor).length > 16 then (after (visible texts) cursor)[15]? else none⟩ := by
  have names : inOrder ([] ++ texts.filter fun name => name ≠ ".proofstorm" ∧ ∀ first ∈ cursor, first < name) =
      after (visible texts) cursor := by
    rw [visible,← inOrder_filter (distinct.filter _),List.nil_append,List.filter_filter]
    refine congrArg inOrder (List.filter_congr fun name _ => ?_)
    by_cases here : name = ".proofstorm" <;> simp [here]
  rw [listDirectory,there,ok_bind,require_some,ok_bind]
  dsimp only
  rw [utf8,collectNames_texts cursor texts (by simpa using small),ok_bind]
  rw [inOrder] at names
  rw [names]
  rfl

/-- What a page of a directory shows: at most sixteen of its names. -/
structure ListReply.Shows (path : String) (texts : List String) (reply : ListReply) : Prop where
  path : reply.path = path
  few : reply.entries.length ≤ 16
  entries : ∀ name ∈ reply.entries, name ∈ texts
  next : ∀ name ∈ reply.nextAfter, name ∈ texts

theorem mem_visible {name : String} : name ∈ visible texts ↔ name ∈ texts ∧ name ≠ ".proofstorm" := by
  rw [visible,inOrder,(List.perm_insertionSort (· ≤ ·) _).mem_iff,List.mem_filter,decide_eq_true_eq]

theorem mem_after {α : Type} [LinearOrder α] {all : List α} {cursor : Option α} {entry : α}
    (member : entry ∈ after all cursor) : entry ∈ all := by
  cases cursor with
  | none => exact member
  | some first => exact List.mem_of_mem_filter member

theorem listDirectory_all (there : listedPath root path = .ok (some (.directory entries)))
    (utf8 : entries.names = texts.map osName) (distinct : texts.Nodup) (small : texts.length ≤ 4096) :
    ∃ replies, Follows (listDirectory root path) (fun reply => reply.nextAfter.map some) none replies ∧
      replies.flatMap ListReply.entries = visible texts ∧ ∀ reply ∈ replies, reply.Shows path texts := by
  have sorted : (visible texts).Pairwise (· < ·) := inOrder_sorted (distinct.filter _)
  have advances : ∀ cursor : Option String, True → ∃ reply, Following.Advances (listDirectory root path)
      (fun reply => reply.nextAfter.map some) ListReply.entries (fun _ => True) (after (visible texts)) cursor reply ∧
      reply.Shows path texts := by
    intro cursor _
    refine ⟨_,⟨listDirectory_page there utf8 distinct small cursor,fun following next => ?_,fun next => ?_⟩,?_⟩
    · obtain ⟨name,given,rfl⟩ := Option.map_eq_some_iff.mp next
      obtain ⟨some_,parts⟩ := page_onward sorted given
      exact ⟨trivial,some_,parts⟩
    · exact page_done (Option.map_eq_none_iff.mp next)
    · constructor
      · rfl
      · exact List.length_take_le 16 _
      · intro name member
        exact (mem_visible.mp (mem_after (List.mem_of_mem_take member))).1
      · intro name given
        dsimp only at given
        split_ifs at given
        · exact (mem_visible.mp (mem_after (List.mem_of_getElem? given))).1
        · cases given
  exact follows_all advances (trivial : (fun _ => True) (none : Option String))
end

/-! ### Tasks -/

section
variable {now : Nat} {tasks : List (FileName × TaskFiles)} {texts : List String}

/-- The tasks among the directories: those whose name does not start with a dot. -/
def taskIds (texts : List String) : List String := inOrder (texts.filter fun name => name.toList.head? ≠ some '.')

/-- The state of a task can be read. -/
def Readable (now : Nat) (tasks : List (FileName × TaskFiles)) : Prop :=
  ∀ task ∈ tasks, ∃ state, status now task.2 = .ok state

theorem ids_texts (utf8 : tasks.map Prod.fst = texts.map osName) : ids tasks = .ok (taskIds texts) := by
  have names : tasks.mapM (fun task => require (intoString task.1) (Failure.refused "invalid task directory")) = .ok texts := by
    rw [mapM_ok]
    have pairs : List.Forall₂ (fun name text => intoString name = some text) (tasks.map Prod.fst) texts := by
      rw [utf8,List.forall₂_map_left_iff]
      exact List.forall₂_same.mpr fun text _ => intoString_osName text
    rw [List.forall₂_map_left_iff] at pairs
    exact pairs.imp fun task text found => require_ok.mpr found
  rw [ids,names,ok_bind]
  rfl

theorem showTask_ok (utf8 : tasks.map Prod.fst = texts.map osName) (readable : Readable now tasks) {id : String}
    (member : id ∈ texts) : ∃ state, showTask now tasks id = .ok (id,state) := by
  have named : osName id ∈ tasks.map Prod.fst := utf8 ▸ List.mem_map_of_mem member
  obtain ⟨task,there,same⟩ := List.mem_map.mp named
  cases found : tasks.find? fun task => task.1 == osName id with
  | none => exact absurd (by simpa using same) (List.find?_eq_none.mp found task there)
  | some other =>
    obtain ⟨state,read⟩ := readable other (List.mem_of_find?_eq_some found)
    refine ⟨state,?_⟩
    rw [showTask,filesOf,found]
    show (status now other.2 >>= fun state => pure (id,state)) = _
    rw [read]
    rfl

theorem mapM_shown {ids : List String} {shown : List (String × Json)} (all : ids.mapM (showTask now tasks) = .ok shown) :
    shown.map Prod.fst = ids := by
  rw [mapM_ok] at all
  induction all with
  | nil => rfl
  | cons one _ ih =>
    obtain ⟨_,_,rest⟩ := bind_ok.mp one
    obtain ⟨_,_,made⟩ := bind_ok.mp rest
    cases made
    rw [List.map_cons,ih]

theorem listTasks_page (utf8 : tasks.map Prod.fst = texts.map osName) (readable : Readable now tasks)
    (cursor : Option String) :
    ∃ shown, listTasks now tasks cursor = .ok ⟨shown,
      if (after (taskIds texts) cursor).length > 8 then (after (taskIds texts) cursor)[7]? else none⟩ ∧
      shown.map Prod.fst = (after (taskIds texts) cursor).take 8 := by
  have retained : ((taskIds texts).filter fun id => ∀ first ∈ cursor, first < id) = after (taskIds texts) cursor := by
    cases cursor with
    | none => simp [after]
    | some first => simp [after]
  have members : ∀ id ∈ (after (taskIds texts) cursor).take 8, id ∈ texts := by
    intro id member
    have within := (retained ▸ List.mem_of_mem_take member : id ∈ (taskIds texts).filter _)
    have among := (List.perm_insertionSort (· ≤ ·) _).mem_iff.mp (List.mem_of_mem_filter within)
    exact List.mem_of_mem_filter among
  obtain ⟨shown,all⟩ := mapM_succeeds (f := showTask now tasks) fun id member => by
    obtain ⟨state,made⟩ := showTask_ok utf8 readable (members id member)
    exact ⟨_,made⟩
  refine ⟨shown,?_,mapM_shown all⟩
  rw [listTasks,ids_texts utf8,ok_bind]
  dsimp only
  rw [retained,all]
  rfl

/-- What a page of tasks shows: at most eight of them. -/
structure TasksReply.Shows (texts : List String) (reply : TasksReply) : Prop where
  few : reply.tasks.length ≤ 8
  next : ∀ id ∈ reply.nextAfter, id ∈ texts

theorem mem_taskIds {id : String} : id ∈ taskIds texts ↔ id ∈ texts ∧ id.toList.head? ≠ some '.' := by
  rw [taskIds,inOrder,(List.perm_insertionSort (· ≤ ·) _).mem_iff,List.mem_filter,decide_eq_true_eq]

theorem listTasks_all (utf8 : tasks.map Prod.fst = texts.map osName) (distinct : texts.Nodup)
    (readable : Readable now tasks) :
    ∃ replies, Follows (listTasks now tasks) (fun reply => reply.nextAfter.map some) none replies ∧
      replies.flatMap (fun reply => reply.tasks.map Prod.fst) = taskIds texts ∧ ∀ reply ∈ replies, reply.Shows texts := by
  have sorted : (taskIds texts).Pairwise (· < ·) := inOrder_sorted (distinct.filter _)
  have advances : ∀ cursor : Option String, True → ∃ reply, Following.Advances (listTasks now tasks)
      (fun reply => reply.nextAfter.map some) (fun reply => reply.tasks.map Prod.fst) (fun _ => True)
      (after (taskIds texts)) cursor reply ∧ reply.Shows texts := by
    intro cursor _
    obtain ⟨shown,page,names⟩ := listTasks_page utf8 readable cursor
    refine ⟨_,⟨page,fun following next => ?_,fun next => ?_⟩,?_⟩
    · obtain ⟨name,given,rfl⟩ := Option.map_eq_some_iff.mp next
      obtain ⟨some_,parts⟩ := page_onward sorted given
      rw [names]
      exact ⟨trivial,some_,parts⟩
    · rw [names]
      exact page_done (Option.map_eq_none_iff.mp next)
    · constructor
      · have lengths := congrArg List.length names
        rw [List.length_map,List.length_take] at lengths
        dsimp only
        omega
      · intro id given
        dsimp only at given
        split_ifs at given
        · exact (mem_taskIds.mp (mem_after (List.mem_of_getElem? given))).1
        · cases given
  exact follows_all advances (trivial : (fun _ => True) (none : Option String))
end

/-! ### Every page -/

/-- A listing is complete: each name that is to be seen comes once, in order. -/
structure Complete (listed names : List String) (seen : String → Prop) : Prop where
  ordered : listed.Pairwise (· < ·)
  each : ∀ name, name ∈ listed ↔ name ∈ names ∧ seen name

section
variable (root : Tree) (path : String)

/-- A file is read to its end with its text, and each reply reaches the client. -/
def ReadsWhole : Prop :=
  ∀ text mode, localPath root path = .ok (some (.file (Utf8.encode text) mode)) → (Utf8.encode text).length < 2 ^ 63 →
    ∃ replies, Follows (readFile root path) ReadReply.nextOffset 0 replies ∧
      replies.flatMap (fun reply => reply.content.toList) = text ∧ ∀ reply ∈ replies, Delivered reply.toJson

/-- A directory is listed to its end. A page reaches the client where it fits, as it
    does where no name has a character to escape, and is replaced otherwise. -/
def ListsWhole : Prop :=
  ∀ entries names, listedPath root path = .ok (some (.directory entries)) → entries.names = names.map osName →
    names.Nodup → names.length ≤ 4096 →
    ∃ replies, Follows (listDirectory root path) (fun reply => reply.nextAfter.map some) none replies ∧
      Complete (replies.flatMap ListReply.entries) names (· ≠ ".proofstorm") ∧
      (∀ reply ∈ replies, Carried reply.toJson) ∧
      ((∀ name ∈ names, PlainName name) → ∀ reply ∈ replies, Delivered reply.toJson)

/-- So are the tasks, where the state of each can be read; a page of them fits where
    no state takes up more than 1325 bytes. -/
def ListsTasks : Prop :=
  ∀ now (tasks : List (FileName × TaskFiles)) names, tasks.map Prod.fst = names.map osName → names.Nodup →
    Readable now tasks →
    ∃ replies, Follows (listTasks now tasks) (fun reply => reply.nextAfter.map some) none replies ∧
      Complete (replies.flatMap fun reply => reply.tasks.map Prod.fst) names (fun name => name.toList.head? ≠ some '.') ∧
      (∀ reply ∈ replies, Carried reply.toJson) ∧
      ((∀ name ∈ names, PlainName name) → ∀ reply ∈ replies, (∀ task ∈ reply.tasks, cost task.2.write ≤ 1325) →
        Delivered reply.toJson)
end

theorem workspace_pages_complete (root : Tree) (path : String) :
    ReadsWhole root path ∧ ListsWhole root path ∧ ListsTasks := by
  refine ⟨fun text mode found room => readFile_all found room,?_,?_⟩
  · intro entries names there utf8 distinct small
    obtain ⟨replies,follows,all,shows⟩ := listDirectory_all there utf8 distinct small
    refine ⟨replies,follows,?_,?_,?_⟩
    · rw [all]
      exact ⟨inOrder_sorted (distinct.filter _),fun name => mem_visible⟩
    · intro reply _
      exact carried reply.toJson
    · intro plain reply member
      have page := shows reply member
      have short : byteLength reply.path ≤ 512 := by
        rw [page.path]
        unfold listedPath at there
        split_ifs at there with here
        · rw [here]
          decide
        · exact localPath_bytes there
      exact deliver_fits (ListReply.fits page.few short (fun name there => plain name (page.entries name there))
        fun name given => plain name (page.next name given))
  · intro now tasks names utf8 distinct readable
    obtain ⟨replies,follows,all,shows⟩ := listTasks_all utf8 distinct readable
    refine ⟨replies,follows,?_,?_,?_⟩
    · rw [all]
      exact ⟨inOrder_sorted (distinct.filter _),fun name => mem_taskIds⟩
    · intro reply _
      exact carried reply.toJson
    · intro plain reply member states
      have page := shows reply member
      exact deliver_fits (TasksReply.fits page.few states fun id given => plain id (page.next id given))

theorem workspace_pages_complete_file :
    ∃ replies, Follows (readFile (.directory (.cons (osName "a") (.file (Utf8.encode ['h','i']) 0) .nil)) "a")
        ReadReply.nextOffset 0 replies ∧
      replies.flatMap (fun reply => reply.content.toList) = ['h','i'] ∧ ∀ reply ∈ replies, Delivered reply.toJson :=
  (workspace_pages_complete (.directory (.cons (osName "a") (.file (Utf8.encode ['h','i']) 0) .nil)) "a").1 ['h','i'] 0
    (by rfl) (by decide)

/-! ### A page that is held back -/

/-- Seventeen names of 255 bytes, all but one of each a quote. -/
def quotedName (i : Nat) : String := .ofList (List.replicate 254 '"' ++ [Char.ofNat (97 + i)])

def quotedNames : List String := (List.range 17).map quotedName

/-- Entries of empty files. -/
def emptyFiles : List String → Listing
  | [] => .nil
  | name :: rest => .cons (osName name) (.file [] 0) (emptyFiles rest)

theorem emptyFiles_names (names : List String) : (emptyFiles names).names = names.map osName := by
  induction names with
  | nil => rfl
  | cons name rest ih => exact congrArg (List.cons (osName name)) ih

theorem quotedNames_nodup : quotedNames.Nodup := by
  refine List.Nodup.map_on (fun i left j right same => ?_) List.nodup_range
  have chars := congrArg String.toList same
  rw [quotedName,quotedName,String.toList_ofList,String.toList_ofList] at chars
  have last := List.singleton_inj.mp (List.append_cancel_left chars)
  have apart : ∀ i < 17, ∀ j < 17, Char.ofNat (97 + i) = Char.ofNat (97 + j) → i = j := by decide
  exact apart i (List.mem_range.mp left) j (List.mem_range.mp right) last

theorem twice_replicate (count : Nat) (c : Char) (rest : List Char) :
    twice (List.replicate count c ++ rest) = count * cost (Core.escape c) + twice rest := by
  induction count with
  | zero => rw [List.replicate_zero,List.nil_append,Nat.zero_mul,Nat.zero_add]
  | succ count ih =>
    rw [List.replicate_succ,List.cons_append,twice_cons,ih,Nat.succ_mul]
    omega

theorem quotedName_cost (i : Nat) : 1020 ≤ cost (Json.str (quotedName i)).write := by
  have quote : cost (Core.escape '"') = 4 := by decide
  rw [cost_string,quotedName,String.toList_ofList,twice_replicate,quote]
  omega

theorem quotedName_length : ∀ i < 17, byteLength (quotedName i) = 255 := by
  intro i small
  have last : ∀ i < 17, (Char.ofNat (97 + i)).utf8Size = 1 := by decide
  have quote : ('"').utf8Size = 1 := by decide
  rw [quotedName,byteLength,String.toList_ofList,List.map_append,List.sum_append,List.map_replicate,List.sum_replicate_nat,
    List.map_singleton,List.sum_singleton,last i small,quote]

theorem quotedNames_visible : (visible quotedNames).length = 17 := by
  have all : quotedNames.filter (· ≠ ".proofstorm") = quotedNames := by
    refine List.filter_eq_self.mpr fun name member => decide_eq_true fun same => ?_
    obtain ⟨i,_,rfl⟩ := List.mem_map.mp member
    have quote : (quotedName i).toList.head? = some '"' := by
      rw [quotedName,String.toList_ofList]
      rfl
    rw [same] at quote
    exact absurd quote (by decide)
  rw [visible,all,inOrder,List.length_insertionSort,quotedNames,List.length_map,List.length_range]

/-- A page of sixteen such names does not fit. -/
theorem quotedNames_over {next : Option String} : ¬ Fits (ListReply.toJson ⟨"",(visible quotedNames).take 16,next⟩) := by
  have each : ∀ value ∈ ((visible quotedNames).take 16).map Json.str, 1020 ≤ cost value.write := by
    intro value member
    obtain ⟨name,there,rfl⟩ := List.mem_map.mp member
    obtain ⟨i,_,rfl⟩ := List.mem_map.mp (mem_visible.mp (List.mem_of_mem_take there)).1
    exact quotedName_cost i
  have many := le_cost_items each
  rw [List.length_map,List.length_take,quotedNames_visible] at many
  rw [Fits,ListReply.cost_eq,cost_array]
  generalize cost (Core.Items.ofList (((visible quotedNames).take 16).map Json.str)).write = shown at many ⊢
  omega

theorem listing_of_quotes_replaced :
    (∀ name ∈ quotedNames, byteLength name = 255) ∧
      ∃ reply, listDirectory (.directory (emptyFiles quotedNames)) "" none = .ok reply ∧ reply.nextAfter.isSome ∧
        ¬ Delivered reply.toJson ∧ deliver reply.toJson = budgetError := by
  have here : listedPath (.directory (emptyFiles quotedNames)) "" = .ok (some (.directory (emptyFiles quotedNames))) := rfl
  have page := listDirectory_page here (emptyFiles_names quotedNames) quotedNames_nodup (by decide) none
  rw [after_none] at page
  have more : (visible quotedNames)[15]?.isSome := by
    rw [List.getElem?_eq_getElem (by rw [quotedNames_visible]; decide)]
    exact Option.isSome_some
  rw [if_pos (by rw [quotedNames_visible]; decide)] at page
  refine ⟨fun name member => ?_,_,page,more,fun delivered => ?_,deliver_over quotedNames_over⟩
  · obtain ⟨i,small,rfl⟩ := List.mem_map.mp member
    exact quotedName_length i (List.mem_range.mp small)
  · exact quotedNames_over ((delivered_iff _).mp delivered)

end Proofstorm.Workspace
