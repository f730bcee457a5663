import Nteract.NotebookDoc.Cells

namespace Nteract.NotebookDoc

open List hiding after

-- The item stands directly after the anchor, or first. The others stand as before.
def Lands (ids : List String) (id : String) (afterId : Option String) (result : List String) : Prop :=
  ∃ before after, ids.filter (· ≠ id) = before ++ after ∧ result = before ++ id :: after ∧
    before.getLast? = afterId

-- Ids are unique, so there is one place directly after the anchor.
theorem lands_iff {id : String} {ids before after : List String} (hn : ids.Nodup)
    (hs : ids.filter (· ≠ id) = before ++ after) :
    Lands ids id before.getLast? result ↔ result = before ++ id :: after := by
  constructor
  · rintro ⟨front, rest, hf, rfl, hl⟩
    have he : before ++ after = front ++ rest := hs.symm.trans hf
    have hu : (before ++ after).Nodup := hs ▸ hn.filter _
    rcases eq_nil_or_concat before with rfl | ⟨before, last, rfl⟩
    · obtain rfl := getLast?_eq_none_iff.mp hl
      rw [nil_append] at he
      simp [he]
    · rw [concat_eq_append, getLast?_concat] at hl
      obtain ⟨front, rfl⟩ := getLast?_eq_some_iff.mp hl
      have hsplit : before ++ last :: after = front ++ last :: rest := by simpa using he
      have hd := dropWhile_ids (fun other : String => other) (by simpa using hu) rfl
      rw [hsplit, dropWhile_ids (fun other : String => other) (by simpa [hsplit] using hu) rfl]
        at hd
      obtain rfl := (cons.inj hd).2
      rw [append_cancel_right he]
  · rintro rfl
    exact ⟨before, after, hs, rfl, rfl⟩

-- Cells, comment threads and messages have a position and an id.
section Placing

variable {α P : Type} [LinearOrder P] (position : α → P) (id : α → String)
  (index : FractionalIndex P) {before after : List α}

-- The order of the items, by position and then by id.
def rank (item : α) : P ×ₗ String := toLex (position item, id item)

-- The item directly after the anchor, if there is one, has a greater position. If it is the moved
-- item itself, that may also stay before the one that follows it.
def Apart (items : List α) (placed : String) (afterId : Option String) : Prop :=
  ∀ anchor ∈ afterId, ∀ item next rest,
    (items.dropWhile fun item => id item ≠ anchor) = item :: next :: rest →
      position item < position next ∨ id next = placed ∧
        ∀ other ∈ rest.head?, toLex (index.newAfter (position item), placed) ≤ rank position id other

variable {position id index}

theorem exists_split {items : List α} (ha : ∀ anchor ∈ afterId, anchor ∈ items.map id) :
    ∃ before after, items = before ++ after ∧ before.getLast?.map id = afterId := by
  cases afterId with
  | none => exact ⟨[], items, rfl, rfl⟩
  | some anchor =>
    obtain ⟨last, hm, rfl⟩ := mem_map.mp (ha anchor rfl)
    obtain ⟨before, after, hc⟩ := append_of_mem hm
    exact ⟨before ++ [last], after, by simp [hc], by simp⟩

theorem map_orderedInsert_append {r : α → α → Prop} [DecidableRel r]
    (hn : id item ∉ (before ++ after).map id) :
    ((before ++ after).orderedInsert r item).map id = before.map id ++ id item :: after.map id ↔
      (∀ other ∈ before, ¬ r item other) ∧ ∀ other ∈ after.head?, r item other := by
  induction before with
  | nil =>
    cases after with
    | nil => simp
    | cons next rest =>
      have hne : id next ≠ id item := fun he => hn (by simp [he])
      by_cases hr : r item next <;> simp [hr, hne]
  | cons first before ih =>
    have hne : id item ≠ id first := fun he => hn (by simp [he])
    have hi := ih fun hm => hn (mem_cons_of_mem _ hm)
    by_cases hr : r item first
    · simp [hr, hne]
    · simpa [hr] using hi

theorem rank_lt_of_position {first second : α} (hp : position first < position second) :
    rank position id first < rank position id second :=
  Prod.Lex.toLex_lt_toLex.mpr (.inl hp)

-- An item that stands after all of `before` lands there if the next other item is not smaller.
theorem insert_lands_iff (hn : ((before ++ after).map id).Nodup)
    (hne : before.getLast?.map id ≠ some (id item))
    (hlow : ∀ other ∈ before, position other < position item) :
    Lands ((before ++ after).map id) (id item) (before.getLast?.map id)
        ((((before ++ after).filter fun other => id other ≠ id item).orderedInsert
          (fun first second => rank position id first ≤ rank position id second) item).map id) ↔
      ∀ other ∈ (after.filter fun other => id other ≠ id item).head?,
        rank position id item ≤ rank position id other := by
  have hlast : ((before.filter fun other => id other ≠ id item).map id).getLast? =
      before.getLast?.map id := by
    rcases eq_nil_or_concat before with rfl | ⟨before, last, rfl⟩
    · rfl
    · rw [concat_eq_append, getLast?_concat, Option.map_some, ne_eq,
        Option.some.injEq] at hne
      simp [hne]
  have hs : ((before ++ after).map id).filter (· ≠ id item) =
      (before.filter fun other => id other ≠ id item).map id ++
        (after.filter fun other => id other ≠ id item).map id := by
    simp [filter_map, Function.comp_def]
  rw [← hlast, lands_iff hn hs, filter_append, map_orderedInsert_append (by simp)]
  refine and_iff_right fun other hm => ?_
  exact not_le_of_gt (rank_lt_of_position (hlow other (mem_of_mem_filter hm)))

theorem apart_iff (hs : (before.map position ++ after.map position).Pairwise (· ≤ ·))
    (hn : ((before ++ after).map id).Nodup)
    (hp : position item = index.place (before.map position) (after.map position)) :
    (∀ other ∈ (after.filter fun other => id other ≠ id item).head?,
        rank position id item ≤ rank position id other) ↔
      Apart position id index (before ++ after) (id item) (before.getLast?.map id) := by
  rcases eq_nil_or_concat before with rfl | ⟨before, last, rfl⟩
  · have hh := index.place_lt hs (by simp)
    rw [← hp] at hh
    refine iff_of_true (fun other hm => (rank_lt_of_position (hh _ ?_)).le) nofun
    exact mem_map_of_mem (mem_of_mem_filter (mem_of_mem_head? hm))
  · rw [concat_eq_append] at hs hp hn ⊢
    have hd := dropWhile_ids id hn (append_assoc ..)
    rw [getLast?_concat, Option.map_some]
    cases after with
    | nil =>
      refine iff_of_true nofun fun _ he _ _ _ hr => ?_
      obtain rfl := Option.some.inj he
      cases hd.symm.trans hr
    | cons next rest =>
      have ha : Apart position id index ((before ++ [last]) ++ next :: rest) (id item)
            (some (id last)) ↔
          position last < position next ∨ id next = id item ∧ ∀ other ∈ rest.head?,
            toLex (index.newAfter (position last), id item) ≤ rank position id other := by
        refine ⟨fun ha => ha (id last) rfl last next rest hd, fun ha _ he _ _ _ hr => ?_⟩
        obtain rfl := Option.some.inj he
        cases hd.symm.trans hr
        exact ha
      rw [ha]
      by_cases hlt : position last < position next
      · have hh := index.place_lt hs (by simpa using hlt)
        rw [← hp] at hh
        refine iff_of_true (fun other hm => (rank_lt_of_position (hh _ ?_)).le) (.inl hlt)
        exact mem_map_of_mem (mem_of_mem_filter (mem_of_mem_head? hm))
      · have heq : position next = position last :=
          le_antisymm (not_lt.mp hlt) ((pairwise_append.mp hs).2.2 _ (by simp) _ (by simp))
        have hp : position item = index.newAfter (position last) := by
          simpa [FractionalIndex.place, heq, index.next_self] using hp
        by_cases hid : id next = id item
        · have hrest : (rest.filter fun other => id other ≠ id next) = rest := by
            rw [map_append, nodup_append, map_cons, nodup_cons] at hn
            refine filter_eq_self.mpr fun other hm => ?_
            simpa using fun he => hn.2.1.1 (mem_map.mpr ⟨other, hm, he⟩)
          rw [filter_cons_of_neg (by simpa using hid), ← hid, hrest]
          simp [hlt, rank, hp, hid]
        · rw [filter_cons_of_pos (by simpa using hid)]
          have hgt : position next < position item := by
            rw [heq, hp]
            exact index.lt_newAfter _
          have hle : ¬ rank position id item ≤ rank position id next :=
            not_le_of_gt (rank_lt_of_position hgt)
          simp [hlt, hid, hle]

-- An item at the position between the two lists lands there exactly where there is room.
theorem placed_lands_iff (hs : (before.map position ++ after.map position).Pairwise (· ≤ ·))
    (hn : ((before ++ after).map id).Nodup) (hne : before.getLast?.map id ≠ some (id item))
    (hp : position item = index.place (before.map position) (after.map position)) :
    Lands ((before ++ after).map id) (id item) (before.getLast?.map id)
        ((((before ++ after).filter fun other => id other ≠ id item).orderedInsert
          (fun first second => rank position id first ≤ rank position id second) item).map id) ↔
      Apart position id index (before ++ after) (id item) (before.getLast?.map id) := by
  rw [insert_lands_iff hn hne fun other hm => ?_, apart_iff hs hn hp]
  rw [hp]
  exact index.lt_place hs _ (mem_map_of_mem hm)

end Placing

namespace Notebook

variable {P V : Type} [LinearOrder P]

-- `none` stands for a cell that is not there.
def moveCell (notebook : Notebook P V) (index : FractionalIndex P) (id : String)
    (afterCellId : Option String) : Option (Notebook P V) :=
  (notebook.find id).map fun cell =>
    notebook.putCell { cell with position := notebook.computePosition index afterCellId }

variable {notebook : Notebook P V} {index : FractionalIndex P} {afterCellId : Option String}
  [EmptyCollection V]

-- A cell follows the anchor exactly where there is room, and is first without one.
theorem cells_land (ha : ∀ anchor ∈ afterCellId, anchor ∈ notebook.getCellIds) :
    (∀ id cellType, id ∉ notebook.getCellIds → (Lands notebook.getCellIds id afterCellId
      (notebook.addCellAfter index id cellType afterCellId).getCellIds ↔
        Apart Cell.position Cell.id index notebook.cells id afterCellId)) ∧
    ∀ id ∈ notebook.getCellIds, afterCellId ≠ some id →
      ∃ moved, notebook.moveCell index id afterCellId = some moved ∧
        (Lands notebook.getCellIds id afterCellId moved.getCellIds ↔
          Apart Cell.position Cell.id index notebook.cells id afterCellId) := by
  have hput : ∀ cell : Cell P V, afterCellId ≠ some cell.id →
      cell.position = notebook.computePosition index afterCellId →
      (Lands notebook.getCellIds cell.id afterCellId (notebook.putCell cell).getCellIds ↔
        Apart Cell.position Cell.id index notebook.cells cell.id afterCellId) := by
    intro cell hne hp
    obtain ⟨before, after, hc, rfl⟩ := exists_split ha
    rw [computePosition_eq index hc] at hp
    have hn := notebook.unique
    rw [hc] at hn
    have hl := placed_lands_iff (sorted_positions hc) hn hne hp
    rw [← hc] at hl
    exact hl
  refine ⟨fun id cellType hn => hput (newCell id cellType _) (fun he => hn (ha id he)) rfl,
    fun id hm hne => ?_⟩
  obtain ⟨cell, hc, rfl⟩ := mem_map.mp hm
  refine ⟨_, by rw [moveCell, find_of_mem hc]; rfl, ?_⟩
  exact hput { cell with position := notebook.computePosition index afterCellId } hne rfl

end Notebook

open Notebook

-- After a merge with a replica whose first cell is at `position`.
def merged (position : ℚ) : Notebook ℚ (List String) :=
  (empty.addCellAfter rationals "a" "code" none).putCell (newCell "b" "code" position)

theorem added_after_first :
    Lands ["a", "b"] "c" (some "a")
      ((merged 1).addCellAfter rationals "c" "code" (some "a")).getCellIds := by
  have hl := (@cells_land _ _ _ (merged 1) rationals (some "a") _ (by decide +kernel)).1 "c" "code"
    (by decide +kernel)
  refine hl.mpr fun _ ha _ _ _ hr => ?_
  have hd : ((merged 1).cells.dropWhile fun cell => cell.id ≠ "a") =
      [newCell "a" "code" 0, newCell "b" "code" 1] := by decide +kernel
  obtain rfl := Option.some.inj ha
  rw [hd] at hr
  cases hr
  exact .inl (by decide)

-- Two replicas put their first cells at one position. None is left between.
theorem cell_lands_too_late :
    (merged rationals.initial).getCellIds = ["a", "b"] ∧
    ((merged rationals.initial).addCellAfter rationals "c" "code" (some "a")).getCellIds =
      ["a", "b", "c"] ∧
    ((((merged rationals.initial).addCellAfter rationals "c" "code" (some "b")).moveCell rationals "c"
      (some "a")).map getCellIds) = some ["a", "b", "c"] := by
  decide +kernel

end Nteract.NotebookDoc
