import Nteract.Ingest.Cells

namespace Nteract.Ingest

open Lib NotebookDoc NotebookDoc.Notebook
open List hiding after

variable {P V O : Type} [LinearOrder P]

section Loops

variable {step : Ingested P V O → Nat → ExternalCell V O → Ingested P V O}

def StepsApart (step : Ingested P V O → Nat → ExternalCell V O → Ingested P V O) : Prop :=
  ∀ state place cell other, other ≠ cell.id →
    (step state place cell).notebook.find other = state.notebook.find other

theorem find_forCells_other (hs : StepsApart step) (cells : List (ExternalCell V O)) :
    ∀ state place other, other ∉ externalIds cells →
      (forCells step state place cells).notebook.find other = state.notebook.find other := by
  induction cells with
  | nil => exact fun _ _ _ _ => rfl
  | cons cell _ ih =>
    intro state place other ho
    unfold externalIds at ho
    rw [map_cons, mem_cons, not_or] at ho
    rw [forCells, ih _ _ other ho.2, hs state place cell other ho.1]

theorem find_forCells_own (hs : StepsApart step) (found : String → Option (Cell P V))
    (good : ExternalCell V O → Option (Cell P V) → Prop) (cells : List (ExternalCell V O))
    (hg : ∀ state place, ∀ cell ∈ cells, state.notebook.find cell.id = found cell.id →
      good cell ((step state place cell).notebook.find cell.id))
    (hn : (externalIds cells).Nodup) :
    ∀ state place, (∀ cell ∈ cells, state.notebook.find cell.id = found cell.id) →
      ∀ cell ∈ cells, good cell ((forCells step state place cells).notebook.find cell.id) := by
  induction cells with
  | nil => exact fun _ _ _ cell hm => absurd hm not_mem_nil
  | cons first cells ih =>
    intro state place hf cell hm
    unfold externalIds at hn
    rw [map_cons, nodup_cons] at hn
    rw [forCells]
    rcases mem_cons.mp hm with rfl | hm
    · rw [find_forCells_other hs cells _ _ _ hn.1]
      exact hg state place cell (.head _) (hf cell (.head _))
    · refine ih (fun state place cell hm => hg state place cell (.tail _ hm))
        hn.2 _ _ (fun other ho => ?_) cell hm
      have hne : other.id ≠ first.id := fun h => hn.1 (h ▸ mem_map_of_mem ho)
      rw [hs state place first other.id hne]
      exact hf other (.tail _ ho)

end Loops

theorem places_deleteCells (ids : List String) : ∀ notebook : Notebook P V,
    (deleteCells notebook ids).places = notebook.places.filter fun place => place.1 ∉ ids := by
  induction ids with
  | nil =>
    intro notebook
    simp [deleteCells]
  | cons id ids ih =>
    intro notebook
    change (deleteCells (notebook.deleteCell id) ids).places = _
    rw [ih, places_deleteCell, filter_filter]
    refine filter_congr fun other _ => ?_
    simp [Bool.and_comm]

theorem getCellIds_deleteCells (ids : List String) (notebook : Notebook P V) :
    (deleteCells notebook ids).getCellIds = notebook.getCellIds.filter fun id => id ∉ ids := by
  rw [← map_places, places_deleteCells, ← map_places, filter_map]
  rfl

theorem find_deleteCells {id : String} (ids : List String) (hid : id ∉ ids) :
    ∀ notebook : Notebook P V, (deleteCells notebook ids).find id = notebook.find id := by
  induction ids with
  | nil => exact fun _ => rfl
  | cons first ids ih =>
    intro notebook
    rw [mem_cons, not_or] at hid
    change (deleteCells (notebook.deleteCell first) ids).find id = _
    rw [ih hid.2, find_deleteCell_other hid.1]

theorem getCellIds_clearExecutions (ids : List String) : ∀ notebook : Notebook P V,
    (clearExecutions notebook ids).getCellIds = notebook.getCellIds := by
  induction ids with
  | nil => exact fun _ => rfl
  | cons id ids ih =>
    intro notebook
    change (clearExecutions (notebook.setExecutionId id none) ids).getCellIds = _
    rw [ih]
    exact getCellIds_updateCell

theorem Shows.clearExecutions {id source : String} (ids : List String) :
    ∀ {notebook : Notebook P V},
    Shows (notebook.find id) source metadata attachments →
      Shows ((clearExecutions notebook ids).find id) source metadata attachments := by
  induction ids with
  | nil => exact fun hs => hs
  | cons first _ ih =>
    intro notebook hs
    refine ih (?_ : Shows ((notebook.setExecutionId first none).find id) _ _ _)
    by_cases hid : id = first
    · exact hid ▸ (edits_setExecutionId notebook id none).shows metadata hs
    · have ho : (notebook.setExecutionId first none).find id = notebook.find id :=
        find_updateCell_other hid
      rwa [ho]

theorem forCells_append {step : Ingested P V O → Nat → ExternalCell V O → Ingested P V O}
    (first second : List (ExternalCell V O)) : ∀ state place,
    forCells step state place (first ++ second) =
      forCells step (forCells step state place first) (place + first.length) second := by
  induction first with
  | nil => exact fun _ _ => rfl
  | cons cell first ih =>
    intro state place
    rw [cons_append, forCells, ih, forCells, length_cons, Nat.add_assoc, Nat.add_comm 1]

variable (context : IngestContext P V O) (external : List (ExternalCell V O))

def keptIds : List String :=
  context.current.getCellIds.filter fun id => id ∉ cellsToDelete context external

-- No cell unknown to the file stands before one after which the file adds.
def LocalsTrail : Prop :=
  ∀ id ∈ keptIds context external,
    (∃ added ∈ (externalIds external).dropWhile fun other => other ≠ id,
      added ∉ context.current.getCellIds) →
    ∀ other ∈ (keptIds context external).takeWhile fun other => other ≠ id,
      other ∈ externalIds external

instance : Decidable (LocalsTrail context external) :=
  inferInstanceAs (Decidable (∀ id ∈ keptIds context external, _ → _))

def AddsAfter (id : String) : Prop :=
  ∃ added ∈ externalIds external, added ∉ context.current.getCellIds ∧
    [id, added] <:+: externalIds external

instance : DecidablePred (AddsAfter context external) := fun id =>
  inferInstanceAs (Decidable (∃ added ∈ externalIds external, added ∉ _ ∧ [id, added] <:+: _))

def Apart (first second : String × P) : Prop :=
  AddsAfter context external first.1 → first.2 < second.2

instance : DecidableRel (Apart context external) := fun first second =>
  inferInstanceAs (Decidable (AddsAfter context external first.1 → first.2 < second.2))

-- No two cells share a position where the file adds one between them.
def Roomy : Prop :=
  (context.current.places.filter fun place => place.1 ∉ cellsToDelete context external).IsChain
    (Apart context external)

instance : Decidable (Roomy context external) :=
  inferInstanceAs (Decidable (List.IsChain ..))

-- The cells done are in the order of the file, and first while some are added.
structure InOrder (done rest ids : List String) : Prop where
  shared : ids.filter (fun id => id ∈ externalIds external) =
    done ++ rest.filter fun id => id ∈ context.current.getCellIds
  front : (∃ added ∈ rest, added ∉ context.current.getCellIds) →
    ∃ remaining, ids = done ++ remaining ∧ remaining <:+ keptIds context external

variable {context external} {id : String}

theorem filter_done (hf : externalIds external = done ++ rest) :
    done.filter (fun id => id ∈ externalIds external) = done := by
  refine filter_eq_self.mpr fun id hm => ?_
  rw [hf]
  simp [hm]

theorem takeWhile_of_nodup (hn : (before ++ id :: after).Nodup) :
    (before ++ id :: after).takeWhile (fun other => other ≠ id) = before := by
  have ho : ∀ other ∈ before, decide (other ≠ id) = true := by
    intro other hm
    rw [nodup_append] at hn
    simpa using hn.2.2 other hm id (.head _)
  rw [takeWhile_append_of_pos ho]
  simp

theorem keptIds_nodup : (keptIds context external).Nodup := context.current.unique.filter _

theorem LocalsTrail.before (ht : LocalsTrail context external)
    (hn : (externalIds external).Nodup) {before after : List String}
    (hk : before ++ id :: after = keptIds context external)
    (hf : externalIds external = done ++ id :: rest)
    (ha : ∃ added ∈ rest, added ∉ context.current.getCellIds) :
    ∀ other ∈ before, other ∈ externalIds external := by
  have hnodup : (before ++ id :: after).Nodup := hk ▸ keptIds_nodup
  have hid : id ∈ keptIds context external := by
    rw [← hk]
    simp
  have hl := ht id hid
  rw [← hk, takeWhile_of_nodup hnodup] at hl
  refine hl ?_
  obtain ⟨added, hm, hnew⟩ := ha
  refine ⟨added, ?_, hnew⟩
  rw [hf] at hn ⊢
  rw [dropWhile_ids (fun id => id) (by simpa using hn) rfl]
  exact .tail _ hm

theorem InOrder.existing (hn : (externalIds external).Nodup) (ht : LocalsTrail context external)
    (hf : externalIds external = done ++ id :: rest)
    (hid : id ∈ context.current.getCellIds)
    (ho : InOrder context external done (id :: rest) ids) :
    InOrder context external (done ++ [id]) rest ids := by
  have hs := ho.shared
  rw [filter_cons_of_pos (by simpa using hid)] at hs
  refine ⟨by simpa using hs, fun ha => ?_⟩
  obtain ⟨added, hm, hnew⟩ := ha
  obtain ⟨_, rfl, front, hk⟩ := ho.front ⟨added, .tail _ hm, hnew⟩
  rw [filter_append, filter_done hf, append_cancel_left_eq, filter_eq_cons_iff] at hs
  obtain ⟨locals, after, rfl, hl, -, -⟩ := hs
  have hall : ∀ other ∈ front ++ locals, other ∈ externalIds external :=
    ht.before hn (by rw [← hk, append_assoc]) hf ⟨added, hm, hnew⟩
  -- a cell between the cells done and this one would be a cell of the file
  have hnil : locals = [] := by
    refine eq_nil_iff_forall_not_mem.mpr fun other hm => ?_
    exact hl other hm (by simpa using hall other (mem_append_right _ hm))
  subst hnil
  exact ⟨after, by simp, front ++ [id], by simpa using hk⟩

theorem InOrder.added (hf : externalIds external = done ++ id :: rest)
    (hid : id ∉ context.current.getCellIds)
    (ho : InOrder context external done (id :: rest) ids) :
    InOrder context external (done ++ [id]) rest
      (ids.take done.length ++ id :: ids.drop done.length) := by
  obtain ⟨remaining, rfl, hk⟩ := ho.front ⟨id, (.head _), hid⟩
  have hs := ho.shared
  rw [filter_cons_of_neg (by simpa using hid), filter_append, filter_done hf,
    append_cancel_left_eq] at hs
  have hfiled : id ∈ externalIds external := by
    rw [hf]
    simp
  rw [take_left, drop_left]
  refine ⟨?_, fun _ => ⟨remaining, by simp, hk⟩⟩
  rw [filter_append, filter_done hf, filter_cons_of_pos (by simpa using hfiled), hs]
  simp

theorem InOrder.absent (hn : (externalIds external).Nodup)
    (hf : externalIds external = done ++ id :: rest)
    (hid : id ∉ context.current.getCellIds)
    (ho : InOrder context external done (id :: rest) ids) : id ∉ ids := by
  intro hm
  have hfiled : id ∈ externalIds external := by
    rw [hf]
    simp
  have hs : id ∈ ids.filter fun id => id ∈ externalIds external := by
    simp [hm, hfiled]
  rw [ho.shared, mem_append] at hs
  rcases hs with hd | hr
  · rw [hf, nodup_append] at hn
    exact hn.2.2 id hd id (.head _) rfl
  · exact hid (by simpa using (mem_filter.mp hr).2)

theorem InOrder.gap {places : List (String × P)} (hf : externalIds external = done ++ id :: rest)
    (hid : id ∉ context.current.getCellIds)
    (ho : InOrder context external done (id :: rest) (places.map Prod.fst))
    (hc : places.IsChain (Apart context external)) : Gap places done.length := by
  intro last hl next hn
  rw [← take_append_drop done.length places, isChain_append] at hc
  refine hc.2.2 last hl next hn ⟨id, by rw [hf]; simp, hid, ?_⟩
  obtain ⟨_, heq, -⟩ := ho.front ⟨id, .head _, hid⟩
  have hlast : done.getLast? = some last.1 := by
    have ht := congrArg (List.take done.length) heq
    rw [take_left, ← map_take] at ht
    rw [← ht, List.getLast?_map, hl]
    rfl
  obtain ⟨front, rfl⟩ := List.getLast?_eq_some_iff.mp hlast
  exact ⟨front, rest, by rw [hf]; simp⟩

variable [EmptyCollection V] [DecidableEq V] [DecidableEq O]

theorem forCells_inOrder (hn : (externalIds external).Nodup)
    (ht : LocalsTrail context external) (cells : List (ExternalCell V O)) :
    ∀ (done : List String) (state : Ingested P V O),
      externalIds external = done ++ externalIds cells →
      state.notebook.places.IsChain (Apart context external) →
      InOrder context external done (externalIds cells) state.notebook.getCellIds →
      (forCells (ingestStep context) state done.length cells).notebook.getCellIds.filter
        (fun id => id ∈ externalIds external) = externalIds external := by
  induction cells with
  | nil =>
    intro done state hfile _ ho
    rw [forCells, ho.shared, hfile]
    rfl
  | cons cell cells ih =>
    intro done state hfile hchain ho
    have hnext : externalIds external = (done ++ [cell.id]) ++ externalIds cells := by
      rw [hfile]
      simp [externalIds]
    have hl : (done ++ [cell.id]).length = done.length + 1 := by simp
    rw [forCells, ← hl]
    cases hf : context.current.find cell.id with
    | some =>
      have hid : cell.id ∈ context.current.getCellIds := by
        by_contra ha
        rw [find_eq_none.mpr ha] at hf
        cases hf
      have hc : Confined state.notebook
          (ingestStep context state done.length cell).notebook cell.id :=
        ingestStep_confined (by rw [hf]; rfl)
      refine ih _ _ hnext (by rwa [hc.places]) ?_
      rw [hc.ids]
      exact ho.existing hn ht hfile hid
    | none =>
      have hid := find_eq_none.mp hf
      have ha := ho.absent hn hfile hid
      have hgap : Gap state.notebook.places done.length :=
        InOrder.gap hfile hid (by rwa [map_places]) hchain
      have hp : Placed state.notebook
          (ingestStep context state done.length cell).notebook done.length cell.id :=
        ingestStep_placed hf
      refine ih _ _ hnext (hp.chain hgap ha (fun _ _ hlt _ => hlt) hchain) ?_
      rw [hp.ids hgap ha]
      exact ho.added hfile hid

def Ascending (places : List (String × P)) : Prop :=
  places.IsChain fun first second => first.2 < second.2

theorem Ascending.gap {places : List (String × P)} (hs : Ascending places) (place : Nat) :
    Gap places place := by
  unfold Ascending at hs
  rw [← take_append_drop place places, isChain_append] at hs
  exact hs.2.2

-- Where no position is shared, cells only ever come in between.
theorem forCells_grows (cells : List (ExternalCell V O)) (hn : (externalIds cells).Nodup) :
    ∀ (state : Ingested P V O) place,
      (∀ cell ∈ cells, context.current.find cell.id = none →
        state.notebook.find cell.id = none) → Ascending state.notebook.places →
      Ascending (forCells (ingestStep context) state place cells).notebook.places ∧
        state.notebook.getCellIds <+
          (forCells (ingestStep context) state place cells).notebook.getCellIds := by
  induction cells with
  | nil => exact fun _ _ _ hs => ⟨hs, .refl _⟩
  | cons cell cells ih =>
    intro state place hnew hs
    unfold externalIds at hn
    rw [map_cons, nodup_cons] at hn
    have hstep : Ascending (ingestStep context state place cell).notebook.places ∧
        state.notebook.getCellIds <+
          (ingestStep context state place cell).notebook.getCellIds := by
      cases hf : context.current.find cell.id with
      | some =>
        have hc : Confined state.notebook (ingestStep context state place cell).notebook cell.id :=
          ingestStep_confined (by rw [hf]; rfl)
        rw [hc.places, hc.ids]
        exact ⟨hs, .refl _⟩
      | none =>
        have hp : Placed state.notebook (ingestStep context state place cell).notebook place
            cell.id := ingestStep_placed hf
        have ha := find_eq_none.mp (hnew cell (.head _) hf)
        refine ⟨hp.chain (hs.gap place) ha (fun _ _ hlt => hlt) hs, ?_⟩
        rw [hp.ids (hs.gap place) ha]
        nth_rewrite 1 [← take_append_drop place state.notebook.getCellIds]
        exact (Sublist.refl _).append (sublist_cons_self _ _)
    obtain ⟨hlast, hgrows⟩ := ih hn.2 _ (place + 1) (fun other hm hnone => by
      have hne : other.id ≠ cell.id := fun h => hn.1 (h ▸ mem_map_of_mem hm)
      rw [find_ingestStep_other hne]
      exact hnew other (.tail _ hm) hnone) hstep.1
    exact ⟨hlast, hstep.2.trans hgrows⟩

-- A cell placed by its number in the file is in order only where the cells before it are those
-- before it in the file.
theorem take_of_ordered {ids final file rest : List String} (hfile : file = done ++ id :: rest)
    (hn : file.Nodup) (hd : ∀ other ∈ done, other ∈ ids)
    (hg : ids.take done.length ++ id :: ids.drop done.length <+ final)
    (ho : final.filter (fun other => other ∈ file) = file) :
    ∀ other, other ∈ ids.take done.length ↔ other ∈ done := by
  subst hfile
  obtain ⟨hdone, hrest, happart⟩ := nodup_append.mp hn
  have hlate : ∀ other ∈ done, other ∉ ids.drop done.length := by
    intro other hm hdrop
    have hpair : [id, other] <+ final :=
      ((singleton_sublist.mpr hdrop).cons_cons id |>.trans (sublist_append_right _ _)).trans hg
    have hfiled := hpair.filter fun other => other ∈ done ++ id :: rest
    rw [ho, filter_eq_self.mpr (by simp [hm])] at hfiled
    obtain ⟨_ | ⟨first, before⟩, after, heq, hb, ha⟩ := sublist_append_iff.mp hfiled
    · obtain rfl : [id, other] = after := heq
      have hm' := singleton_sublist.mp (cons_sublist_cons.mp ha)
      exact happart other hm other (.tail _ hm') rfl
    · obtain rfl : id = first := (cons.inj heq).1
      exact happart id (hb.subset (.head _)) id (.head _) rfl
  have hsub : done ⊆ ids.take done.length := by
    intro other hm
    have hi := hd other hm
    rw [← take_append_drop done.length ids, mem_append] at hi
    exact hi.resolve_right (hlate other hm)
  have hperm : done.Perm (ids.take done.length) :=
    (subperm_of_subset hdone hsub).perm_of_length_le (by simp)
  exact fun other => hperm.mem_iff.symm

omit [DecidableEq V] [DecidableEq O] in
theorem forCells_rebuilt (hn : (externalIds external).Nodup) (cells : List (ExternalCell V O)) :
    ∀ (done : List String) (state : Ingested P V O),
      externalIds external = done ++ externalIds cells → state.notebook.getCellIds = done →
      (forCells (rebuildStep context) state done.length cells).notebook.getCellIds =
        externalIds external := by
  induction cells with
  | nil =>
    intro done state hf hi
    rw [forCells, hi, hf]
    simp [externalIds]
  | cons cell cells ih =>
    intro done state hf hi
    have hnext : externalIds external = (done ++ [cell.id]) ++ externalIds cells := by
      rw [hf]
      simp [externalIds]
    have hl : (done ++ [cell.id]).length = done.length + 1 := by simp
    have ha : cell.id ∉ state.notebook.getCellIds := by
      rw [hi]
      intro hm
      rw [hf, nodup_append] at hn
      exact hn.2.2 cell.id hm cell.id (.head _) rfl
    have hp : Placed state.notebook (rebuildStep context state done.length cell).notebook
        done.length cell.id := rebuildStep_placed
    have hgap : Gap state.notebook.places done.length := by
      intro _ _ next hnx
      rw [← hi, ← map_places, length_map, drop_length] at hnx
      cases hnx
    rw [forCells, ← hl]
    refine ih _ _ hnext ?_
    rw [hp.ids hgap ha, hi, take_length, drop_length]

end Nteract.Ingest
