import Nteract.NotebookDoc.Placement

namespace Nteract.Comments

open Function

open Nteract.NotebookDoc (FractionalIndex Lands dropWhile_ids exists_split placed_lands_iff)
open List hiding after merge

inductive CommentAnchor
  | Notebook
  | Cell (cellId : String)
  | SourceRange (cellId : String)
  | Output (cellId : String) (executionId outputId : Option String)
  | CellRange (startCellId endCellId : String)
deriving DecidableEq

def CommentAnchor.threadOrderScope : CommentAnchor → String
  | .Notebook => "notebook"
  | .Cell cellId | .SourceRange cellId => "cell:" ++ cellId
  | .Output cellId executionId outputId =>
    "output:" ++ cellId ++ ":" ++ executionId.getD "" ++ ":" ++ outputId.getD ""
  | .CellRange startCellId endCellId => "cell_range:" ++ startCellId ++ ":" ++ endCellId

inductive CommentsDocError
  | ThreadAlreadyExists (threadId : String)
  | ThreadNotFound (threadId : String)
  | AfterThreadNotFound (threadId : String)
  | MessageAlreadyExists (threadId messageId : String)
  | AfterMessageNotFound (messageId : String)

variable {P α : Type}

-- Threads and messages are ordered by position, then by id.
abbrev Entry (P : Type) := P ×ₗ String

def Entry.position (entry : Entry P) : P := (ofLex entry).1

def Entry.id (entry : Entry P) : String := (ofLex entry).2

@[simp] theorem Entry.id_toLex (position : P) (id : String) :
    Entry.id (toLex (position, id)) = id := rfl

structure Message (P : Type) where
  id : String
  position : P
deriving DecidableEq

def Message.entry (message : Message P) : Entry P := toLex (message.position, message.id)

-- After the creation only a demotion writes the anchor and the stored scope.
structure Thread (P : Type) where
  id : String
  position : P
  created : CommentAnchor
  anchorDemoted : Bool
  scopeDemoted : Bool
  messages : List (Message P)
  unique : (messages.map Message.id).Nodup
  demoted : anchorDemoted = scopeDemoted

namespace Thread

variable (thread : Thread P)

def entry : Entry P := toLex (thread.position, thread.id)

def anchor : CommentAnchor := if thread.anchorDemoted then .Notebook else thread.created

def threadOrderScope : String :=
  if thread.scopeDemoted then CommentAnchor.Notebook.threadOrderScope
  else thread.created.threadOrderScope

end Thread

-- The threads map. The order of the list has no meaning.
structure CommentsDoc (P : Type) where
  threads : List (Thread P)
  unique : (threads.map Thread.id).Nodup

section Merging

variable (key : α → String) (join : α → α → α)

-- Ids are drawn at random, so two items of one id are copies of one item.
def mergeBy (ours theirs : List α) : List α :=
  ours.map (fun item => ((theirs.find? fun other => key other = key item).map (join item)).getD item) ++
    theirs.filter fun item => key item ∉ ours.map key

theorem mergeBy_unique (hj : ∀ item other, key (join item other) = key item)
    (ho : (ours.map key).Nodup) (ht : (theirs.map key).Nodup) :
    ((mergeBy key join ours theirs).map key).Nodup := by
  have hk : ∀ item, key (((theirs.find? fun other => key other = key item).map
      (join item)).getD item) = key item := by
    intro item
    cases theirs.find? fun other => key other = key item with
    | none => rfl
    | some other => exact hj item other
  rw [mergeBy, map_append, map_map]
  simp only [comp_def, hk]
  refine ho.append (ht.sublist (filter_sublist.map key)) ?_
  intro id hm hn
  obtain ⟨_, hi, rfl⟩ := mem_map.mp hn
  exact absurd hm (by simpa using (mem_filter.mp hi).2)

end Merging

-- A merge keeps a demotion that either side has seen.
def Thread.join (ours theirs : Thread P) : Thread P where
  id := ours.id
  position := ours.position
  created := ours.created
  anchorDemoted := ours.anchorDemoted || theirs.anchorDemoted
  scopeDemoted := ours.scopeDemoted || theirs.scopeDemoted
  messages := mergeBy Message.id (fun message _ => message) ours.messages theirs.messages
  unique := mergeBy_unique _ _ (fun _ _ => rfl) ours.unique theirs.unique
  demoted := by rw [ours.demoted, theirs.demoted]

variable [LinearOrder P]

def sort (entries : List (Entry P)) : List (Entry P) := entries.insertionSort (· ≤ ·)

def computePositionAfter (index : FractionalIndex P) (entries : List (Entry P))
    (afterId : Option String) : P :=
  let sorted := sort entries
  let found := match afterId with
    | some id => sorted.dropWhile fun entry => Entry.id entry ≠ id
    | none => []
  match found with
  | [] =>
    match sorted with
    | [] => index.initial
    | first :: _ => index.newBefore (Entry.position first)
  | left :: rest => index.next (Entry.position left) (rest.head?.map Entry.position)

namespace CommentsDoc

variable (doc : CommentsDoc P) (index : FractionalIndex P)

def merge (ours theirs : CommentsDoc P) : CommentsDoc P where
  threads := mergeBy Thread.id Thread.join ours.threads theirs.threads
  unique := mergeBy_unique _ _ (fun _ _ => rfl) ours.unique theirs.unique

-- The entries that a new thread of the scope is placed among.
def scopeEntries (scope : String) : List (Entry P) :=
  (doc.threads.filter fun thread => thread.threadOrderScope = scope).map Thread.entry

def createThread (threadId messageId : String) (anchor : CommentAnchor)
    (afterThreadId : Option String) : Except CommentsDocError (CommentsDoc P) :=
  if hnew : threadId ∈ doc.threads.map Thread.id then .error (.ThreadAlreadyExists threadId)
  else
    let entries := doc.scopeEntries anchor.threadOrderScope
    match afterThreadId.filter (· ∉ entries.map Entry.id) with
    | some missing => .error (.AfterThreadNotFound missing)
    | none => .ok
      { threads :=
          { id := threadId, position := computePositionAfter index entries afterThreadId,
            created := anchor, anchorDemoted := false, scopeDemoted := false,
            messages := [⟨messageId, computePositionAfter index [] none⟩],
            unique := by simp, demoted := rfl } :: doc.threads
        unique := by simpa using ⟨by simpa using hnew, doc.unique⟩ }

def find (threadId : String) : Option (Thread P) :=
  doc.threads.find? fun thread => thread.id = threadId

def put (thread : Thread P) : CommentsDoc P where
  threads := doc.threads.map fun other => if other.id = thread.id then thread else other
  unique := by
    have hid : ∀ other : Thread P, (if other.id = thread.id then thread else other).id = other.id := by
      intro other
      split
      · case isTrue he => exact he.symm
      · rfl
    simpa [comp_def, hid] using doc.unique

def demoteThreadAnchorToNotebook (threadId : String) : Except CommentsDocError (CommentsDoc P) :=
  match doc.find threadId with
  | none => .error (.ThreadNotFound threadId)
  | some thread =>
    .ok (doc.put { thread with anchorDemoted := true, scopeDemoted := true, demoted := rfl })

def reply (threadId messageId : String) (afterMessageId : Option String) :
    Except CommentsDocError (CommentsDoc P) :=
  match doc.find threadId with
  | none => .error (.ThreadNotFound threadId)
  | some thread =>
    if hnew : messageId ∈ thread.messages.map Message.id then
      .error (.MessageAlreadyExists threadId messageId)
    else
      let entries := thread.messages.map Message.entry
      match afterMessageId.filter (· ∉ entries.map Entry.id) with
      | some missing => .error (.AfterMessageNotFound missing)
      | none => .ok (doc.put
        { thread with
          messages := ⟨messageId, computePositionAfter index entries afterMessageId⟩ ::
            thread.messages
          unique := by simpa using ⟨by simpa using hnew, thread.unique⟩ })

def key (thread : Thread P) : String ×ₗ Entry P :=
  toLex (thread.anchor.threadOrderScope, thread.entry)

def readProjection : List (Thread P) :=
  doc.threads.insertionSort fun first second => key first ≤ key second

def scopeThreads (scope : String) : List String :=
  (doc.readProjection.filter fun thread => thread.anchor.threadOrderScope = scope).map Thread.id

end CommentsDoc

def Thread.readMessages (thread : Thread P) : List (Message P) :=
  thread.messages.insertionSort fun first second => first.entry ≤ second.entry

-- The item directly after the anchor, if there is one, has a greater position.
def Apart (afterId : Option String) (sorted : List (Entry P)) : Prop :=
  ∀ anchor ∈ afterId, ∀ entry next rest,
    (sorted.dropWhile fun entry => Entry.id entry ≠ anchor) = entry :: next :: rest →
      Entry.position entry < Entry.position next

theorem sort_sorted (entries : List (Entry P)) : (sort entries).Pairwise (· ≤ ·) :=
  pairwise_insertionSort _ _

theorem filter_absent {ids : List String} {id : String} (hn : id ∉ ids) : ids.filter (· ≠ id) = ids := by
  refine filter_eq_self.mpr fun other hm => ?_
  have hne : other ≠ id := fun he => hn (he ▸ hm)
  simpa using hne

-- No anchor is missing where the code looks for it.
theorem filter_missing {ids : List String} {afterId : Option String}
    (ha : ∀ after ∈ afterId, after ∈ ids) : afterId.filter (· ∉ ids) = none := by
  rw [Option.filter_eq_none_iff]
  intro after hm
  simpa using ha after hm

theorem computePositionAfter_eq (index : FractionalIndex P) (hn : ((sort entries).map Entry.id).Nodup)
    (hs : sort entries = before ++ after) :
    computePositionAfter index entries (before.getLast?.map Entry.id) =
      index.place (before.map Entry.position) (after.map Entry.position) := by
  unfold computePositionAfter
  rcases eq_nil_or_concat before with rfl | ⟨before, last, rfl⟩
  · cases after <;> simp [FractionalIndex.place, hs]
  · rw [concat_eq_append] at hs ⊢
    have hd := dropWhile_ids Entry.id hn (hs.trans (append_assoc ..))
    simp only [List.getLast?_concat, Option.map_some, hd]
    simp [FractionalIndex.place]

-- An entry at the computed position stands directly after the anchor, or first, where there is room.
theorem sort_lands_iff (item : Entry P) (hn : (entries.map Entry.id).Nodup)
    (hid : Entry.id item ∉ entries.map Entry.id)
    (ha : ∀ anchor ∈ afterId, anchor ∈ entries.map Entry.id)
    (hi : Entry.position item = computePositionAfter index entries afterId) :
    Lands ((sort entries).map Entry.id) (Entry.id item) afterId
        ((sort (item :: entries)).map Entry.id) ↔ Apart afterId (sort entries) := by
  have hp : ((sort entries).map Entry.id).Perm (entries.map Entry.id) :=
    (perm_insertionSort (· ≤ ·) entries).map Entry.id
  rw [← hp.nodup_iff] at hn
  rw [← hp.mem_iff] at hid
  simp only [← hp.mem_iff] at ha
  have hfresh : ∀ entry ∈ sort entries, Entry.id entry ≠ Entry.id item := fun entry hm he =>
    hid (mem_map.mpr ⟨entry, hm, he⟩)
  obtain ⟨before, after, hc, rfl⟩ := exists_split ha
  rw [computePositionAfter_eq index hn hc] at hi
  have hs : (before.map Entry.position ++ after.map Entry.position).Pairwise (· ≤ ·) := by
    rw [← map_append, ← hc, pairwise_map]
    exact (sort_sorted entries).imp fun hle => Prod.Lex.monotone_fst _ _ hle
  have hl := placed_lands_iff hs (hc ▸ hn) (fun he => hid (ha _ he)) hi
  rw [← hc, filter_eq_self.mpr fun entry hm => decide_eq_true (hfresh entry hm)] at hl
  refine Iff.trans hl ⟨fun hg anchor hm entry next rest hd => ?_, fun hg anchor hm entry next rest hd =>
    .inl (hg anchor hm entry next rest hd)⟩
  refine (hg anchor hm entry next rest hd).resolve_right fun ho => hfresh next ?_ ho.1
  have hsub := (dropWhile_suffix (l := sort entries) fun entry => Entry.id entry ≠ anchor).subset
  rw [hd] at hsub
  exact hsub (by simp)

theorem map_filter_sort [LinearOrder β] (rank : α → β) (entry : α → Entry P) (kind : α → Bool)
    (items : List α)
    (hr : ∀ first second, kind first → kind second →
      rank first ≤ rank second → entry first ≤ entry second) :
    ((items.insertionSort fun first second => rank first ≤ rank second).filter kind).map entry =
      sort ((items.filter kind).map entry) := by
  have : Std.Total fun first second => rank first ≤ rank second := ⟨fun _ _ => le_total _ _⟩
  have : IsTrans α fun first second => rank first ≤ rank second := ⟨fun _ _ _ => le_trans⟩
  refine Perm.eq_of_pairwise (fun _ _ _ _ => le_antisymm) ?_ (sort_sorted _) ?_
  · rw [pairwise_map]
    refine ((pairwise_insertionSort _ items).filter kind).imp_of_mem ?_
    intro first second hf hs
    exact hr first second (mem_filter.mp hf).2 (mem_filter.mp hs).2
  · exact (((perm_insertionSort _ items).filter kind).map entry).trans (perm_insertionSort _ _).symm

namespace CommentsDoc

variable {doc : CommentsDoc P} {index : FractionalIndex P} {scope : String}

omit [LinearOrder P] in
theorem scope_eq (thread : Thread P) : thread.anchor.threadOrderScope = thread.threadOrderScope := by
  unfold Thread.anchor Thread.threadOrderScope
  rw [thread.demoted]
  split <;> rfl

theorem scopeThreads_eq : doc.scopeThreads scope = (sort (doc.scopeEntries scope)).map Entry.id := by
  unfold scopeThreads scopeEntries readProjection
  simp only [← scope_eq]
  rw [← map_filter_sort key, map_map]
  · rfl
  · intro first second hf hs hle
    have he : first.anchor.threadOrderScope = second.anchor.threadOrderScope := by
      simp_all
    rcases Prod.Lex.toLex_le_toLex.mp hle with hlt | ⟨_, hle⟩
    · exact absurd hlt (by simp [he])
    · exact hle

omit [LinearOrder P] in
theorem ids_scopeEntries : (doc.scopeEntries scope).map Entry.id =
    (doc.threads.filter fun thread => thread.threadOrderScope = scope).map Thread.id := by
  simp [scopeEntries, comp_def, Entry.id, Thread.entry]

omit [LinearOrder P] in
theorem scopeEntries_sub (doc : CommentsDoc P) (scope : String) : ((doc.scopeEntries scope).map Entry.id).Sublist
    (doc.threads.map Thread.id) := by
  rw [ids_scopeEntries]
  exact filter_sublist.map Thread.id

omit [LinearOrder P] in
theorem find_put (ht : doc.find threadId = some thread) (hi : changed.id = thread.id) :
    (doc.put changed).find threadId = some changed := by
  have hp : (fun other : Thread P => decide ((if other.id = changed.id then changed else other).id =
      threadId)) = fun other => decide (other.id = threadId) := by
    funext other
    split
    · case isTrue he => rw [he]
    · rfl
  unfold find put at *
  rw [List.find?_map, comp_def, hp, ht]
  simp [hi]

end CommentsDoc

theorem Thread.ids_readMessages (thread : Thread P) : thread.readMessages.map Message.id =
    (sort (thread.messages.map Message.entry)).map Entry.id := by
  rw [sort, ← map_insertionSort (fun first second => first.entry ≤ second.entry) (· ≤ ·)
    Message.entry _ fun _ _ _ _ => Iff.rfl, map_map]
  rfl

theorem comments_land (index : FractionalIndex P) (doc : CommentsDoc P) :
    (∀ threadId messageId (anchor : CommentAnchor) afterThreadId,
      threadId ∉ doc.threads.map Thread.id →
      (∀ after ∈ afterThreadId, after ∈ doc.scopeThreads anchor.threadOrderScope) →
      ∃ created, doc.createThread index threadId messageId anchor afterThreadId = .ok created ∧
        (Lands (doc.scopeThreads anchor.threadOrderScope) threadId afterThreadId
            (created.scopeThreads anchor.threadOrderScope) ↔
          Apart afterThreadId (sort (doc.scopeEntries anchor.threadOrderScope))) ∧
        (created.readProjection.map Thread.id).filter (· ≠ threadId) =
          doc.readProjection.map Thread.id) ∧
    ∀ threadId thread messageId afterMessageId, doc.find threadId = some thread →
      messageId ∉ thread.messages.map Message.id →
      (∀ after ∈ afterMessageId, after ∈ thread.messages.map Message.id) →
      ∃ replied answered, doc.reply index threadId messageId afterMessageId = .ok replied ∧
        replied.find threadId = some answered ∧
        (Lands (thread.readMessages.map Message.id) messageId afterMessageId
            (answered.readMessages.map Message.id) ↔
          Apart afterMessageId (sort (thread.messages.map Message.entry))) := by
  refine ⟨fun threadId messageId anchor afterThreadId hn ha => ?_,
    fun threadId thread messageId afterMessageId ht hn ha => ?_⟩
  · have hp := perm_insertionSort (· ≤ ·) (doc.scopeEntries anchor.threadOrderScope)
    have hsub := doc.scopeEntries_sub anchor.threadOrderScope
    rw [CommentsDoc.scopeThreads_eq] at ha
    simp only [sort, (hp.map Entry.id).mem_iff] at ha
    unfold CommentsDoc.createThread
    rw [dif_neg hn]
    simp only [filter_missing ha]
    refine ⟨_, rfl, ?_, ?_⟩
    · rw [CommentsDoc.scopeThreads_eq, CommentsDoc.scopeThreads_eq]
      have hl := sort_lands_iff (toLex (computePositionAfter index _ afterThreadId, threadId))
        (doc.unique.sublist hsub) (fun hm => hn (hsub.subset hm)) ha rfl
      simpa [CommentsDoc.scopeEntries, Thread.threadOrderScope, Thread.entry] using hl
    · unfold CommentsDoc.readProjection
      rw [insertionSort_cons, orderedInsert_eq_take_drop, map_append, map_cons,
        filter_append, filter_cons_of_neg (by simp), ← filter_append,
        ← map_append, takeWhile_append_dropWhile]
      refine filter_absent fun hm => hn ?_
      exact ((perm_insertionSort _ doc.threads).map Thread.id).mem_iff.mp hm
  · have hids : (thread.messages.map Message.entry).map Entry.id =
        thread.messages.map Message.id := by
      simp [comp_def, Entry.id, Message.entry]
    have hl := sort_lands_iff (toLex (computePositionAfter index _ afterMessageId, messageId))
      (hids ▸ thread.unique) (hids ▸ hn) (hids ▸ ha) rfl
    unfold CommentsDoc.reply
    simp only [ht, dif_neg hn, hids, filter_missing ha]
    refine ⟨_, _, rfl, CommentsDoc.find_put ht rfl, ?_⟩
    rw [Thread.ids_readMessages, Thread.ids_readMessages]
    exact hl

open Nteract.NotebookDoc (rationals)

def thread (id : String) (position : ℚ) : Thread ℚ :=
  ⟨id, position, .Notebook, false, false, [⟨"m", 0⟩], by decide, rfl⟩

def merged (position : ℚ) : CommentsDoc ℚ :=
  CommentsDoc.merge ⟨[thread "a" rationals.initial], by simp⟩ ⟨[thread "b" position], by simp⟩

theorem thread_lands_after_first :
    ∃ created, (merged 1).createThread rationals "c" "m" .Notebook (some "a") = .ok created ∧
      Lands ["a", "b"] "c" (some "a") (created.scopeThreads "notebook") := by
  obtain ⟨created, hc, hl, _⟩ := (comments_land rationals (merged 1)).1 "c" "m" .Notebook (some "a")
    (by decide +kernel) (by decide +kernel)
  refine ⟨created, hc, hl.mpr fun _ ha _ _ _ hr => ?_⟩
  have hd : ((sort ((merged 1).scopeEntries "notebook")).dropWhile fun entry => Entry.id entry ≠ "a") =
      [toLex (0, "a"), toLex (1, "b")] := by decide +kernel
  obtain rfl := Option.some.inj ha
  cases hd.symm.trans hr
  decide

-- Both replicas put their first thread at one position. None is left between.
theorem thread_lands_too_late :
    (merged rationals.initial).scopeThreads "notebook" = ["a", "b"] ∧
      ((merged rationals.initial).createThread rationals "c" "m" .Notebook (some "a")).toOption.map
        (CommentsDoc.scopeThreads · "notebook") = some ["a", "b", "c"] := by
  decide +kernel

end Nteract.Comments
