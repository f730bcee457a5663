import Nteract.NotebookDoc

namespace Nteract.NotebookDoc

open Option
open List hiding after

section Insertion

variable {α : Type} {r : α → α → Prop} [DecidableRel r]

theorem orderedInsert_append (hb : ∀ other ∈ before, ¬ r item other)
    (ha : ∀ other ∈ after, r item other) :
    (before ++ after).orderedInsert r item = before ++ item :: after := by
  induction before with
  | nil =>
    cases after with
    | nil => rfl
    | cons other => simp [ha other mem_cons_self]
  | cons _ _ ih =>
    rw [forall_mem_cons] at hb
    simp [hb.1, ih hb.2]

theorem dropWhile_ids (id : α → String) (hn : (items.map id).Nodup)
    (hc : items = before ++ item :: after) :
    (items.dropWhile fun other => id other ≠ id item) = item :: after := by
  subst hc
  have ho : ∀ other ∈ before, id other ≠ id item := by
    intro other hm he
    rw [map_append, nodup_append] at hn
    exact hn.2.2 _ (mem_map_of_mem hm) _ (by simp) he
  rw [dropWhile_append_of_pos (by simpa using ho)]
  simp

end Insertion

variable {P V : Type} [LinearOrder P]

namespace FractionalIndex

variable (index : FractionalIndex P) {before after : List P}

-- The position for an item between the two lists.
def place (before after : List P) : P :=
  match before.getLast?, after.head? with
  | some left, successor => index.next left successor
  | none, some first => index.newBefore first
  | none, none => index.initial

theorem lt_place (hs : (before ++ after).Pairwise (· ≤ ·)) :
    ∀ other ∈ before, other < index.place before after := by
  rcases eq_nil_or_concat before with rfl | ⟨before, last, rfl⟩
  · exact nofun
  · rw [concat_eq_append, pairwise_append] at hs
    have hlt : last < index.place (before ++ [last]) after := by
      unfold place
      rw [List.getLast?_concat]
      exact index.lt_next fun right hr => hs.2.2 last (by simp) right (mem_of_mem_head? hr)
    rw [concat_eq_append]
    intro other hm
    rcases mem_append.mp hm with hm | hm
    · exact ((pairwise_append.mp hs.1).2.2 other hm last (by simp)).trans_lt hlt
    · rwa [mem_singleton.mp hm]

theorem place_lt (hs : (before ++ after).Pairwise (· ≤ ·))
    (hg : ∀ left ∈ before.getLast?, ∀ right ∈ after.head?, left < right) :
    ∀ other ∈ after, index.place before after < other := by
  cases after with
  | nil => exact nofun
  | cons first rest =>
    have hfirst : index.place before (first :: rest) < first := by
      unfold place
      cases hl : before.getLast? with
      | none => exact index.newBefore_lt first
      | some left => exact index.next_lt (hg left hl first rfl)
    intro other hm
    rcases mem_cons.mp hm with rfl | hm
    · exact hfirst
    · exact hfirst.trans_le (rel_of_pairwise_cons (pairwise_append.mp hs).2.1 hm)

end FractionalIndex

namespace Notebook

variable {notebook : Notebook P V} {id : String}

theorem find_eq_some : notebook.find id = some cell ↔ cell ∈ notebook.cells ∧ cell.id = id := by
  unfold find
  constructor
  · intro hf
    exact ⟨mem_of_find?_eq_some hf, by simpa using List.find?_some hf⟩
  · rintro ⟨hm, hid⟩
    have hs : (notebook.cells.find? fun other => other.id = id).isSome := by
      rw [List.find?_isSome]
      exact ⟨cell, hm, by simpa using hid⟩
    obtain ⟨found, hfound⟩ := isSome_iff_exists.mp hs
    have hfid : found.id = id := by simpa using List.find?_some hfound
    rw [hfound, inj_on_of_nodup_map notebook.unique (mem_of_find?_eq_some hfound) hm
      (hfid.trans hid.symm)]

theorem find_eq_none : notebook.find id = none ↔ id ∉ notebook.getCellIds := by
  unfold find getCellIds
  simp

theorem find_of_mem (hm : cell ∈ notebook.cells) : notebook.find cell.id = some cell :=
  find_eq_some.mpr ⟨hm, rfl⟩

@[simp] theorem getCellIds_updateCell :
    (notebook.updateCell id change).getCellIds = notebook.getCellIds := by
  simp [getCellIds, updateCell]

theorem find_updateCell : (notebook.updateCell id change).find other =
    (notebook.find other).map (Cell.alter id change) := by
  apply Option.ext
  intro found
  rw [find_eq_some, map_eq_some_iff]
  constructor
  · rintro ⟨hm, hid⟩
    obtain ⟨cell, hc, rfl⟩ := mem_map.mp hm
    exact ⟨cell, find_eq_some.mpr ⟨hc, by simpa using hid⟩, rfl⟩
  · rintro ⟨cell, hf, rfl⟩
    obtain ⟨hm, hid⟩ := find_eq_some.mp hf
    exact ⟨mem_map.mpr ⟨cell, hm, rfl⟩, by simpa using hid⟩

theorem find_updateCell_other (ho : other ≠ id) :
    (notebook.updateCell id change).find other = notebook.find other := by
  rw [find_updateCell]
  cases hf : notebook.find other with
  | none => rfl
  | some =>
    have hid := (find_eq_some.mp hf).2
    simp [Cell.alter, hid, ho]

theorem find_deleteCell_other (ho : other ≠ id) :
    (notebook.deleteCell id).find other = notebook.find other := by
  apply Option.ext
  intro found
  rw [find_eq_some, find_eq_some]
  unfold deleteCell
  rw [mem_filter]
  constructor
  · rintro ⟨⟨hm, -⟩, hid⟩
    exact ⟨hm, hid⟩
  · rintro ⟨hm, rfl⟩
    exact ⟨⟨hm, by simpa using ho⟩, rfl⟩

theorem deleteCell_of_absent (hid : id ∉ notebook.getCellIds) :
    (notebook.deleteCell id).cells = notebook.cells := by
  refine filter_eq_self.mpr fun cell hm => ?_
  have hne : cell.id ≠ id := fun h => hid (h ▸ mem_map_of_mem hm)
  simpa using hne

def places (notebook : Notebook P V) : List (String × P) :=
  notebook.cells.map fun cell => (cell.id, cell.position)

-- The cells around the place have different positions.
def Gap (places : List (String × P)) (place : Nat) : Prop :=
  ∀ last ∈ (places.take place).getLast?, ∀ next ∈ (places.drop place).head?, last.2 < next.2

theorem map_places (notebook : Notebook P V) :
    notebook.places.map Prod.fst = notebook.getCellIds := by
  simp [places, getCellIds]

theorem places_updateCell : (notebook.updateCell id change).places = notebook.places := by
  simp [places, updateCell]

theorem places_deleteCell : (notebook.deleteCell id).places =
    notebook.places.filter fun other => other.1 ≠ id := by
  simp [places, deleteCell, List.filter_map, Function.comp_def]

theorem position_le {first second : Cell P V} (hle : Cell.le first second) :
    first.position ≤ second.position := by
  rcases Prod.Lex.toLex_le_toLex.mp hle with hlt | ⟨he, -⟩
  · exact hlt.le
  · exact he.le

theorem sorted_positions (hc : notebook.cells = before ++ after) :
    (before.map Cell.position ++ after.map Cell.position).Pairwise (· ≤ ·) := by
  rw [← map_append, ← hc, pairwise_map]
  exact notebook.sorted.imp position_le

theorem computePosition_eq (index : FractionalIndex P) (hc : notebook.cells = before ++ after) :
    notebook.computePosition index (before.getLast?.map Cell.id) =
      index.place (before.map Cell.position) (after.map Cell.position) := by
  rcases eq_nil_or_concat before with rfl | ⟨before, last, rfl⟩
  · cases after <;> simp [computePosition, FractionalIndex.place, hc]
  · rw [concat_eq_append] at hc ⊢
    rw [List.getLast?_concat, map_some, computePosition]
    have hd := dropWhile_ids Cell.id notebook.unique (hc.trans (append_assoc ..))
    simp only [hd]
    simp [FractionalIndex.place]

theorem not_le_of_position_lt {first second : Cell P V} (hp : second.position < first.position) :
    ¬ Cell.le first second := by
  unfold Cell.le Cell.key
  rw [not_le, Prod.Lex.toLex_lt_toLex]
  exact .inl hp

theorem le_of_position_lt {first second : Cell P V} (hp : first.position < second.position) :
    Cell.le first second := by
  unfold Cell.le Cell.key
  rw [Prod.Lex.toLex_le_toLex]
  exact .inl hp

section Adding

variable [EmptyCollection V]

theorem find_addCellAfter : (notebook.addCellAfter index id cellType afterCellId).find id =
      some (newCell id cellType (notebook.computePosition index afterCellId)) :=
  find_eq_some.mpr ⟨(mem_orderedInsert Cell.le).mpr (.inl rfl), rfl⟩

theorem find_addCellAfter_other (ho : other ≠ id) :
    (notebook.addCellAfter index id cellType afterCellId).find other = notebook.find other := by
  have hd : (notebook.deleteCell id).find other = notebook.find other :=
    find_deleteCell_other ho
  rw [← hd]
  apply Option.ext
  intro found
  rw [find_eq_some, find_eq_some]
  unfold addCellAfter putCell
  rw [mem_orderedInsert]
  constructor
  · rintro ⟨rfl | hm, hid⟩
    · exact absurd hid.symm ho
    · exact ⟨hm, hid⟩
  · rintro ⟨hm, hid⟩
    exact ⟨.inr hm, hid⟩

omit [EmptyCollection V] in
theorem insertion_place : (if min place notebook.getCellIds.length = 0 then none
      else notebook.getCellIds[min place notebook.getCellIds.length - 1]?) =
    (notebook.cells.take place).getLast?.map Cell.id := by
  rw [← List.getLast?_map, map_take, List.getLast?_eq_getElem?, length_take]
  change _ = (notebook.getCellIds.take place)[min place notebook.getCellIds.length - 1]?
  rw [List.getElem?_take]
  by_cases hz : min place notebook.getCellIds.length = 0
  · rw [if_pos hz]
    split
    · rw [List.getElem?_eq_none (by omega)]
    · rfl
  · rw [if_neg hz, if_pos (by omega)]

-- Where its neighbours have different positions, an added cell stands where it was asked for.
theorem addCell_places (index : FractionalIndex P) (place : Nat) (cellType : String)
    (hgap : Gap notebook.places place) (hid : id ∉ notebook.getCellIds) :
    ∃ position, (notebook.addCell index place id cellType).places =
        notebook.places.take place ++ (id, position) :: notebook.places.drop place ∧
      (∀ other ∈ notebook.places.take place, other.2 < position) ∧
      ∀ other ∈ notebook.places.drop place, position < other.2 := by
  have hsplit := (take_append_drop place notebook.cells).symm
  have hpositions := sorted_positions hsplit
  unfold Gap places at hgap
  unfold places
  simp only [← map_take, ← map_drop, List.forall_mem_map, Option.forall_mem_map, List.getLast?_map,
    List.head?_map] at hgap ⊢
  have hlow : ∀ other ∈ notebook.cells.take place, other.position <
      notebook.computePosition index ((notebook.cells.take place).getLast?.map Cell.id) := by
    intro other hm
    rw [computePosition_eq index hsplit]
    exact index.lt_place hpositions _ (mem_map_of_mem hm)
  have hhigh : ∀ other ∈ notebook.cells.drop place,
      notebook.computePosition index ((notebook.cells.take place).getLast?.map Cell.id) <
        other.position := by
    intro other hm
    rw [computePosition_eq index hsplit]
    refine index.place_lt hpositions (fun left hl right hr => ?_) _ (mem_map_of_mem hm)
    rw [List.getLast?_map] at hl
    rw [List.head?_map] at hr
    obtain ⟨last, hlast, rfl⟩ := map_eq_some_iff.mp hl
    obtain ⟨next, hnext, rfl⟩ := map_eq_some_iff.mp hr
    exact hgap last hlast next hnext
  have hc : (notebook.addCell index place id cellType).cells =
      notebook.cells.orderedInsert Cell.le (newCell id cellType (notebook.computePosition index
        ((notebook.cells.take place).getLast?.map Cell.id))) := by
    unfold addCell addCellAfter putCell newCell
    dsimp only
    rw [deleteCell_of_absent hid, insertion_place]
  generalize notebook.computePosition index ((notebook.cells.take place).getLast?.map Cell.id) =
    position at hlow hhigh hc
  have hi : (notebook.cells.take place ++ notebook.cells.drop place).orderedInsert Cell.le
      (newCell id cellType position) = notebook.cells.take place ++
        newCell id cellType position :: notebook.cells.drop place :=
    orderedInsert_append (fun other hm => not_le_of_position_lt (hlow other hm))
      fun other hm => le_of_position_lt (hhigh other hm)
  rw [take_append_drop] at hi
  refine ⟨position, ?_, hlow, hhigh⟩
  rw [hc, hi, map_append, map_cons]
  rfl

end Adding

end Notebook

end Nteract.NotebookDoc
