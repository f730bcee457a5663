import Nteract.Ingest.Order

namespace Nteract.Ingest

open Lib NotebookDoc NotebookDoc.Notebook List

variable {P V O : Type} [LinearOrder P] [EmptyCollection V]

section Merge

variable (context : IngestContext P V O) (external : List (ExternalCell V O))

structure Faithful (result : Notebook P V) : Prop where
  order : result.getCellIds.filter (fun id => id ∈ externalIds external) = externalIds external
  filed : ∀ cell ∈ external, ∃ source,
    Shows (result.find cell.id) source cell.metadata cell.attachments ∧
      (context.lastSaveSources.find cell.id ≠ some cell.source → source = cell.source) ∧
      ∀ existing, context.current.find cell.id = some existing →
        context.lastSaveSources.find cell.id = some cell.source →
        source = existing.content.source
  deleted : ∀ id ∉ externalIds external, (context.lastSaveSources.find id).isSome →
    id ∉ result.getCellIds
  kept : ∀ cell ∈ context.current.cells, cell.id ∉ externalIds external →
    context.lastSaveSources.find cell.id = none →
    Shows (result.find cell.id) cell.content.source cell.content.metadata cell.content.attachments

-- The cells are created anew: their metadata and what was not saved is lost.
structure Rebuildable : Prop where
  metadata : ∀ cell ∈ external, cell.metadata = ∅
  sources : ∀ cell ∈ external, ∀ existing ∈ context.current.find cell.id,
    context.lastSaveSources.find cell.id = some cell.source →
    existing.content.source = cell.source
  saved : ∀ id ∈ context.current.getCellIds, id ∉ externalIds external →
    (context.lastSaveSources.find id).isSome

-- The metadata stays, and a place in the file counts in the document.
structure Updatable : Prop where
  metadata : ∀ cell ∈ external, ∀ existing ∈ context.current.find cell.id,
    existing.content.metadata = cell.metadata
  newMetadata : ∀ cell ∈ external, context.current.find cell.id = none → cell.metadata = ∅
  room : Roomy context external
  trail : LocalsTrail context external

-- If the file adds a cell, no two of the cells that stay share a position.
def Spread : Prop :=
  (∃ added ∈ externalIds external, added ∉ context.current.getCellIds) →
    Ascending (context.current.places.filter fun place =>
      place.1 ∉ cellsToDelete context external)

def Ingestible : Prop :=
  if needsRebuild context.current external then Rebuildable context external
  else Updatable context external

variable {context external} (hn : (externalIds external).Nodup)

omit [EmptyCollection V] in
theorem mergedSource_changed (hb : context.lastSaveSources.find cell.id ≠ some cell.source) :
    mergedSource context existing cell = cell.source := by
  unfold mergedSource isExternalChange
  cases hf : context.lastSaveSources.find cell.id with
  | none =>
    by_cases hs : existing.content.source = cell.source <;> simp [hs]
  | some saved =>
    have hne : cell.source ≠ saved := fun h => hb (h ▸ hf)
    simp [hne]

omit [EmptyCollection V] in
theorem cellsToDelete_absent {id : String} (hm : id ∈ cellsToDelete context external) :
    id ∉ externalIds external ∧ (context.lastSaveSources.find id).isSome := by
  unfold cellsToDelete at hm
  split at hm
  · exact absurd hm not_mem_nil
  · simpa using (mem_filter.mp hm).2

omit [EmptyCollection V] in
theorem mem_cellsToDelete {id : String} (hc : id ∈ context.current.getCellIds)
    (he : id ∉ externalIds external) (hs : (context.lastSaveSources.find id).isSome) :
    id ∈ cellsToDelete context external := by
  unfold cellsToDelete
  split
  case isTrue hempty =>
    rw [List.isEmpty_iff] at hempty
    unfold Table.find at hs
    rw [hempty] at hs
    cases hs
  case isFalse => simp [hc, he, hs]

omit [EmptyCollection V] in
theorem Spread.roomy (hs : Spread context external) : Roomy context external := by
  by_cases hadds : ∃ added ∈ externalIds external, added ∉ context.current.getCellIds
  · exact (hs hadds).imp fun _ _ hlt _ => hlt
  · exact (pairwise_of_forall fun _ _ ⟨added, hm, hnew, _⟩ =>
      absurd ⟨added, hm, hnew⟩ hadds).isChain

omit [EmptyCollection V] [LinearOrder P] in
theorem Shows.unique {found : Option (Cell P V)} (hf : Shows found first old refs)
    (hs : Shows found second new kept) : first = second ∧ old = new := by
  obtain ⟨cell, rfl, rfl, rfl, -⟩ := hf
  obtain ⟨_, heq, rfl, rfl, -⟩ := hs
  obtain rfl := Option.some.inj heq
  exact ⟨rfl, rfl⟩

section Rebuild

omit [EmptyCollection V] in
theorem find_emptied (id : String) :
    (deleteCells context.current context.current.getCellIds).find id = none := by
  rw [find_eq_none, getCellIds_deleteCells]
  simp

theorem rebuildStep_apart : StepsApart (rebuildStep context) :=
  fun _ _ _ other ho => rebuildStep_placed.other other ho

include hn

theorem getCellIds_rebuildCells :
    (rebuildCells context external).notebook.getCellIds = externalIds external := by
  have hi : (deleteCells context.current context.current.getCellIds).getCellIds = [] := by
    rw [getCellIds_deleteCells]
    simp
  exact forCells_rebuilt hn external [] _ rfl hi

theorem shows_rebuildCells (hm : cell ∈ external) :
    Shows ((rebuildCells context external).notebook.find cell.id) cell.source ∅ cell.attachments :=
  find_forCells_own rebuildStep_apart (fun _ => none)
    (fun cell found => Shows found cell.source ∅ cell.attachments) external
    (fun _ _ _ _ _ => shows_rebuildStep) hn _ 0 (fun _ _ => find_emptied _) cell hm

theorem rebuildCells_faithful (hr : Rebuildable context external) :
    Faithful context external (rebuildCells context external).notebook where
  order := by
    rw [getCellIds_rebuildCells hn]
    exact filter_eq_self.mpr fun id hm => by simpa using hm
  filed := by
    intro cell hm
    refine ⟨cell.source, ?_, fun _ => rfl, fun existing hf hb => ?_⟩
    · rw [hr.metadata cell hm]
      exact shows_rebuildCells hn hm
    · exact (hr.sources cell hm existing hf hb).symm
  deleted := by
    intro id hid _
    rwa [getCellIds_rebuildCells hn]
  kept := by
    intro cell hm hid hb
    have hs := hr.saved cell.id (mem_map_of_mem hm) hid
    rw [hb] at hs
    cases hs

theorem rebuildable_of_faithful
    (hf : Faithful context external (rebuildCells context external).notebook) :
    Rebuildable context external where
  metadata := by
    intro cell hm
    obtain ⟨_, hshown, -⟩ := hf.filed cell hm
    exact (hshown.unique (shows_rebuildCells hn hm)).2
  sources := by
    intro cell hm existing hfound hb
    obtain ⟨_, hshown, -, hkept⟩ := hf.filed cell hm
    exact (hkept existing hfound hb).symm.trans (hshown.unique (shows_rebuildCells hn hm)).1
  saved := by
    intro id hm hid
    by_contra hsaved
    obtain ⟨cell, hcell, rfl⟩ := mem_map.mp hm
    obtain ⟨_, hfound, -⟩ := hf.kept cell hcell hid (by simpa using hsaved)
    rw [find_eq_none.mpr (by rwa [getCellIds_rebuildCells hn])] at hfound
    cases hfound

end Rebuild

section Update

variable [DecidableEq V] [DecidableEq O]

theorem ingestStep_apart : StepsApart (ingestStep context) :=
  fun _ _ _ _ ho => find_ingestStep_other ho

def Ingests (context : IngestContext P V O) (cell : ExternalCell V O)
    (found : Option (Cell P V)) : Prop :=
  match context.current.find cell.id with
  | some existing =>
    Shows found (mergedSource context existing cell) existing.content.metadata cell.attachments
  | none => Shows found cell.source ∅ cell.attachments

theorem ingestStep_ingests (hl : state.notebook.find cell.id = context.current.find cell.id) :
    Ingests context cell ((ingestStep context state place cell).notebook.find cell.id) := by
  unfold Ingests ingestStep
  cases hf : context.current.find cell.id with
  | some existing => exact updateStep_edits.shows _ ⟨existing, hl.trans hf, rfl, rfl, rfl⟩
  | none => exact (insertedCell_edits ..).shows ∅ shows_createCell

omit [DecidableEq V] [DecidableEq O] in
theorem Ingests.ne_none (hi : Ingests context cell found) : found ≠ none := by
  rintro rfl
  unfold Ingests at hi
  split at hi
  all_goals
    obtain ⟨_, hsome, -⟩ := hi
    cases hsome

theorem mem_forCells {started : Ingested P V O} {cells : List (ExternalCell V O)}
    (hn : (externalIds cells).Nodup)
    (hf : ∀ id ∈ externalIds cells, started.notebook.find id = context.current.find id) :
    ∀ id ∈ externalIds cells,
      id ∈ (forCells (ingestStep context) started 0 cells).notebook.getCellIds := by
  intro id hm
  obtain ⟨filed, hfiled, rfl⟩ := mem_map.mp hm
  have hi : Ingests context filed _ :=
    find_forCells_own ingestStep_apart context.current.find (Ingests context) cells
      (fun _ _ _ _ hl => ingestStep_ingests hl) hn started 0
      (fun _ hcell => hf _ (mem_map_of_mem hcell)) filed hfiled
  by_contra habsent
  exact hi.ne_none (find_eq_none.mpr habsent)

def updatedCells (context : IngestContext P V O) (external : List (ExternalCell V O)) :
    Ingested P V O :=
  forCells (ingestStep context)
    ⟨deleteCells context.current (cellsToDelete context external), [], [],
      !(cellsToDelete context external).isEmpty⟩ 0 external

theorem find_updatedCells_other {id : String} (hid : id ∉ externalIds external) :
    (updatedCells context external).notebook.find id =
      (deleteCells context.current (cellsToDelete context external)).find id :=
  find_forCells_other ingestStep_apart external _ _ id hid

include hn

theorem updatedCells_inOrder (ho : orderChanged context.current external = false)
    (hu : Updatable context external) :
    (updatedCells context external).notebook.getCellIds.filter
      (fun id => id ∈ externalIds external) = externalIds external := by
  refine forCells_inOrder hn hu.trail external [] _ rfl
    (by rw [places_deleteCells]; exact hu.room) ⟨?_, fun _ => ?_⟩
  · have hs : context.current.getCellIds.filter (fun id => id ∈ externalIds external) =
        (externalIds external).filter fun id => id ∈ context.current.getCellIds := by
      unfold orderChanged at ho
      simpa using ho
    rw [← hs, getCellIds_deleteCells, filter_filter]
    refine filter_congr fun id _ => ?_
    by_cases hid : id ∈ externalIds external
    · have hk : id ∉ cellsToDelete context external :=
        fun hm => (cellsToDelete_absent hm).1 hid
      simp [hk]
    · simp [hid]
  · refine ⟨keptIds context external, ?_, suffix_refl _⟩
    exact getCellIds_deleteCells _ _

-- When a new cell is placed, the cells before it are those before it in the file.
theorem ordered_split {started : Ingested P V O} {before after : List (ExternalCell V O)}
    (hext : external = before ++ cell :: after)
    (hnew : context.current.find cell.id = none)
    (hfind : ∀ id ∈ externalIds external, started.notebook.find id = context.current.find id)
    (hs : Ascending started.notebook.places)
    (ho : (forCells (ingestStep context) started 0 external).notebook.getCellIds.filter
      (fun id => id ∈ externalIds external) = externalIds external) :
    ∃ ids, started.notebook.getCellIds <+ ids ∧ ids.Nodup ∧
      ∀ other, other ∈ ids.take before.length ↔ other ∈ externalIds before := by
  have hfile : externalIds external = externalIds before ++ cell.id :: externalIds after := by
    simp [hext, externalIds]
  obtain ⟨hbefore, hafter, hparts⟩ := nodup_append.mp (hfile ▸ hn)
  rw [nodup_cons] at hafter
  rw [hfile] at hfind
  have hfound : ∀ other ∈ cell.id :: externalIds after,
      (forCells (ingestStep context) started 0 before).notebook.find other =
        context.current.find other := by
    intro other hm
    rw [find_forCells_other ingestStep_apart before started 0 other
      fun hb => hparts other hb other hm rfl]
    exact hfind other (mem_append_right _ hm)
  obtain ⟨hstate, hgrown⟩ := forCells_grows before hbefore started 0
    (fun other hm hnone => (hfind _ (mem_append_left _ (mem_map_of_mem hm))).trans hnone) hs
  have hfiled : ∀ other ∈ externalIds before,
      other ∈ (forCells (ingestStep context) started 0 before).notebook.getCellIds :=
    mem_forCells hbefore fun other hm => hfind other (mem_append_left _ hm)
  have hrun : forCells (ingestStep context) started 0 external =
      forCells (ingestStep context) (ingestStep context
        (forCells (ingestStep context) started 0 before) before.length cell) (before.length + 1)
        after := by
    rw [hext, forCells_append, forCells, Nat.zero_add]
  rw [hrun] at ho
  generalize forCells (ingestStep context) started 0 before = state at *
  have hp : Placed state.notebook (ingestStep context state before.length cell).notebook
      before.length cell.id := ingestStep_placed hnew
  have hid := find_eq_none.mp ((hfound cell.id (.head _)).trans hnew)
  obtain ⟨-, hlast⟩ := forCells_grows after hafter.2 _ (before.length + 1)
    (fun other hm hnone => by
      have hne : other.id ≠ cell.id := fun h => hafter.1 (h ▸ mem_map_of_mem hm)
      rw [find_ingestStep_other hne, hfound _ (.tail _ (mem_map_of_mem hm)), hnone])
    (hp.chain (hstate.gap _) hid (fun _ _ hlt => hlt) hstate)
  rw [hp.ids (hstate.gap _) hid] at hlast
  refine ⟨state.notebook.getCellIds, hgrown, state.notebook.unique, ?_⟩
  have hl : before.length = (externalIds before).length := (length_map _).symm
  rw [hl] at ho hlast ⊢
  exact take_of_ordered hfile hn hfiled hlast ho

theorem trail_of_order (hs : Spread context external)
    (ho : (updatedCells context external).notebook.getCellIds.filter
      (fun id => id ∈ externalIds external) = externalIds external) :
    LocalsTrail context external := by
  rintro id hid ⟨added, hadded, hnew⟩ other hother
  have hne : added ≠ id := fun h => hnew (h ▸ (mem_filter.mp hid).1)
  obtain ⟨cell, hcell, rfl⟩ := mem_map.mp ((dropWhile_suffix _).subset hadded)
  obtain ⟨before, after, hext⟩ := append_of_mem hcell
  have hfile : externalIds external = externalIds before ++ cell.id :: externalIds after := by
    simp [hext, externalIds]
  have hbefore : id ∈ externalIds before := by
    by_contra hid
    have hparts := hfile ▸ hn
    rw [nodup_append, nodup_cons] at hparts
    rw [hfile, dropWhile_append_of_pos (fun other hm => by
      simpa using fun h : other = id => hid (h ▸ hm)), dropWhile_cons_of_pos (by simpa using hne)]
      at hadded
    exact hparts.2.1.1 ((dropWhile_suffix _).subset hadded)
  have hspread := hs ⟨cell.id, mem_map_of_mem hcell, hnew⟩
  rw [← places_deleteCells] at hspread
  obtain ⟨ids, hgrown, hunique, htake⟩ := ordered_split hn hext (find_eq_none.mpr hnew)
    (fun _ hm => find_deleteCells _ (fun hd => (cellsToDelete_absent hd).1 hm) _) hspread ho
  rw [getCellIds_deleteCells] at hgrown
  -- the two cells stand in this order among the cells that were there
  have hpair : [other, id] <+ keptIds context external := by
    have hparts := takeWhile_append_dropWhile (p := fun other => decide (other ≠ id))
      (l := keptIds context external)
    rw [← hparts, mem_append] at hid
    rw [← hparts]
    refine (singleton_sublist.mpr hother).append (singleton_sublist.mpr (hid.resolve_left ?_))
    exact fun hm => by simpa using mem_takeWhile_imp hm
  have hsplit := hpair.trans hgrown
  rw [← take_append_drop before.length ids] at hsplit hunique
  obtain ⟨_ | ⟨first, front⟩, back, heq, hf, hb⟩ := sublist_append_iff.mp hsplit
  · obtain rfl : [other, id] = back := heq
    have hlate : id ∈ ids.drop before.length := hb.subset (by simp)
    exact absurd rfl ((nodup_append.mp hunique).2.2 id ((htake id).mpr hbefore) id hlate)
  · obtain rfl : other = first := (cons.inj heq).1
    rw [hfile]
    exact mem_append_left _ ((htake other).mp (hf.subset (.head _)))

theorem updatedCells_ingests (hm : cell ∈ external) :
    Ingests context cell ((updatedCells context external).notebook.find cell.id) := by
  refine find_forCells_own ingestStep_apart context.current.find (Ingests context) external
    (fun _ _ _ _ hl => ingestStep_ingests hl) hn _ 0 (fun other ho => ?_) cell hm
  exact find_deleteCells _ (fun hd => (cellsToDelete_absent hd).1 (mem_map_of_mem ho)) _

theorem updateCells_faithful (ho : orderChanged context.current external = false)
    (hu : Updatable context external) :
    Faithful context external (updateCells context external).notebook where
  order := by
    change (clearExecutions (updatedCells context external).notebook _).getCellIds.filter _ = _
    rw [getCellIds_clearExecutions]
    exact updatedCells_inOrder hn ho hu
  filed := by
    intro cell hm
    have hi : Ingests context cell ((updatedCells context external).notebook.find cell.id) :=
      updatedCells_ingests hn hm
    unfold Ingests at hi
    cases hf : context.current.find cell.id with
    | some existing =>
      rw [hf] at hi
      refine ⟨mergedSource context existing cell, ?_, mergedSource_changed, ?_⟩
      · rw [← hu.metadata cell hm existing hf]
        exact hi.clearExecutions _
      · intro other hother hb
        obtain rfl := Option.some.inj hother
        simp [mergedSource, isExternalChange, hb]
    | none =>
      rw [hf] at hi
      refine ⟨cell.source, ?_, fun _ => rfl, fun _ h => by cases h⟩
      rw [hu.newMetadata cell hm hf]
      exact hi.clearExecutions _
  deleted := by
    intro id hid hs
    change id ∉ (clearExecutions (updatedCells context external).notebook _).getCellIds
    rw [getCellIds_clearExecutions, ← find_eq_none, find_updatedCells_other hid, find_eq_none,
      getCellIds_deleteCells]
    intro hm
    obtain ⟨hc, hk⟩ := mem_filter.mp hm
    exact absurd (mem_cellsToDelete hc hid hs) (by simpa using hk)
  kept := by
    intro cell hm hid hb
    refine Shows.clearExecutions _ ?_
    have hk : cell.id ∉ cellsToDelete context external := by
      intro hd
      have hsaved := (cellsToDelete_absent hd).2
      rw [hb] at hsaved
      cases hsaved
    change Shows ((updatedCells context external).notebook.find cell.id) _ _ _
    rw [find_updatedCells_other hid, find_deleteCells _ hk]
    exact ⟨cell, find_of_mem hm, rfl, rfl, rfl⟩

theorem updatable_of_faithful (hs : Spread context external)
    (hf : Faithful context external (updateCells context external).notebook) :
    Updatable context external := by
  have hingested : ∀ cell ∈ external, ∀ existing, context.current.find cell.id = existing →
      cell.metadata = match existing with
        | some existing => existing.content.metadata
        | none => ∅ := by
    intro cell hm existing hfound
    obtain ⟨_, hshown, -⟩ := hf.filed cell hm
    have hi : Ingests context cell ((updatedCells context external).notebook.find cell.id) :=
      updatedCells_ingests hn hm
    unfold Ingests at hi
    rw [hfound] at hi
    cases existing with
    | some => exact (hshown.unique (hi.clearExecutions _)).2
    | none => exact (hshown.unique (hi.clearExecutions _)).2
  refine ⟨fun cell hm existing h => (hingested cell hm _ h).symm,
    fun cell hm h => hingested cell hm _ h, hs.roomy, trail_of_order hn hs ?_⟩
  have ho : (clearExecutions (updatedCells context external).notebook _).getCellIds.filter _ = _ :=
    hf.order
  rwa [getCellIds_clearExecutions] at ho

end Update

variable [DecidableEq V] [DecidableEq O]

-- Where positions are shared, the place of an added cell depends on the fractional index.
theorem external_edit_ingested (context : IngestContext P V O)
    (external : List (ExternalCell V O)) (hn : (externalIds external).Nodup) :
    (Ingestible context external →
      Faithful context external (applyIpynbCells context external).notebook) ∧
    (needsRebuild context.current external = true ∨ Spread context external →
      Faithful context external (applyIpynbCells context external).notebook →
      Ingestible context external) := by
  unfold applyIpynbCells Ingestible
  split
  case isTrue => exact ⟨rebuildCells_faithful hn, fun _ => rebuildable_of_faithful hn⟩
  case isFalse hupdate =>
    refine ⟨updateCells_faithful hn ?_,
      fun hs => updatable_of_faithful hn (hs.resolve_left hupdate)⟩
    unfold needsRebuild at hupdate
    rw [Bool.not_eq_true, Bool.or_eq_false_iff] at hupdate
    exact hupdate.1

end Merge

def liveCell (id : String) (position : ℚ) (source : String) : Cell ℚ (List String) :=
  ⟨id, position, ⟨"code", source, "null", ∅, ∅, ∅, none⟩⟩

def savedCell (id source : String) : ExternalCell (List String) String :=
  ⟨id, "code", source, "null", ∅, [], ∅, ∅⟩

def idle (current : Notebook ℚ (List String)) (saved : Table String String) :
    IngestContext ℚ (List String) String :=
  ⟨rationals, fun _ => ([], none), fun id => id, false, current, saved⟩

-- The tie is not where the file adds a cell.
def DRAFT : IngestContext ℚ (List String) String :=
  idle ⟨[liveCell "a" 0 "1", liveCell "b" 1 "edited", liveCell "local" 1 "2", liveCell "c" 3 "4"],
    by decide +kernel, by decide⟩ ⟨[("a", "1"), ("b", "3"), ("c", "4")], by decide⟩

def REVISED : List (ExternalCell (List String) String) :=
  [savedCell "a" "new", savedCell "added" "5", savedCell "b" "3"]

theorem revision_ingested : Ingestible DRAFT REVISED ∧
    Faithful DRAFT REVISED (applyIpynbCells DRAFT REVISED).notebook := by
  have hi : Ingestible DRAFT REVISED := by
    unfold Ingestible
    exact ⟨by decide +kernel, by decide +kernel, by decide +kernel, by decide +kernel⟩
  exact ⟨hi, (external_edit_ingested DRAFT REVISED (by decide)).1 hi⟩

-- A cell that was not saved stands before the one after which the file adds a cell.
def LOCAL_FIRST : IngestContext ℚ (List String) String :=
  idle ⟨[liveCell "local" 0 "0", liveCell "a" 1 "1"], by decide +kernel, by decide⟩
    ⟨[("a", "1")], by decide⟩

def EXTENDED : List (ExternalCell (List String) String) :=
  [savedCell "a" "1", savedCell "added" "2"]

def UNSAVED : IngestContext ℚ (List String) String :=
  idle ⟨[liveCell "a" 0 "edited", liveCell "b" 1 "2", liveCell "local" 2 "3"], by decide +kernel,
    by decide⟩ ⟨[("a", "1"), ("b", "2")], by decide⟩

def REORDERED : List (ExternalCell (List String) String) :=
  [savedCell "b" "2", savedCell "a" "1"]

def TAGGED : List (ExternalCell (List String) String) :=
  [{ savedCell "a" "1" with metadata := ["tag"] }]

-- A cell comes too early, an unsaved cell and edit are lost, and metadata too.
theorem external_edit_lost :
    ((externalIds EXTENDED).Nodup ∧
      (applyIpynbCells LOCAL_FIRST EXTENDED).notebook.getCellIds = ["local", "added", "a"] ∧
      ¬ Faithful LOCAL_FIRST EXTENDED (applyIpynbCells LOCAL_FIRST EXTENDED).notebook) ∧
    ((externalIds REORDERED).Nodup ∧
      (applyIpynbCells UNSAVED REORDERED).notebook.getCellIds = ["b", "a"] ∧
      ((applyIpynbCells UNSAVED REORDERED).notebook.find "a").map (fun cell => cell.content.source)
        = some "1" ∧
      ¬ Faithful UNSAVED REORDERED (applyIpynbCells UNSAVED REORDERED).notebook) ∧
    ((externalIds TAGGED).Nodup ∧
      ((applyIpynbCells LOCAL_FIRST TAGGED).notebook.find "a").map
        (fun cell => cell.content.metadata) = some [] ∧
      ¬ Faithful LOCAL_FIRST TAGGED (applyIpynbCells LOCAL_FIRST TAGGED).notebook) := by
  refine ⟨⟨by decide, by decide +kernel, fun hf => ?_⟩,
    ⟨by decide, by decide +kernel, by decide +kernel, fun hf => ?_⟩,
    ⟨by decide, by decide +kernel, fun hf => ?_⟩⟩
  · exact absurd hf.order (by decide +kernel)
  · obtain ⟨cell, hfound, -⟩ := hf.kept (liveCell "local" 2 "3") (by decide) (by decide) (by decide)
    have hg : (applyIpynbCells UNSAVED REORDERED).notebook.find "local" = none := by
      decide +kernel
    exact absurd (hg.symm.trans hfound) nofun
  · obtain ⟨_, ⟨cell, hfound, -, hm, -⟩, -⟩ :=
      hf.filed { savedCell "a" "1" with metadata := ["tag"] } (.head _)
    have he : ∀ cell ∈ (applyIpynbCells LOCAL_FIRST TAGGED).notebook.find "a",
        cell.content.metadata ≠ ["tag"] := by decide +kernel
    exact he cell hfound hm

end Nteract.Ingest
