import Mathlib

namespace Nteract.NotebookDoc

open List

-- The fractional index crate over any ordered positions.
structure FractionalIndex (P : Type) [LinearOrder P] where
  initial : P
  newBefore : P → P
  newAfter : P → P
  newBetween : P → P → Option P
  newBefore_lt : ∀ position, newBefore position < position
  lt_newAfter : ∀ position, position < newAfter position
  newBetween_spec : ∀ first second, first < second →
    ∃ position, newBetween first second = some position ∧ first < position ∧ position < second
  newBetween_self : ∀ position, newBetween position position = none

namespace FractionalIndex

variable {P : Type} [LinearOrder P] (index : FractionalIndex P) {left right : P}

-- After `left`, and before its successor where there is room.
def next (left : P) : Option P → P
  | some right => (index.newBetween left right).getD (index.newAfter left)
  | none => index.newAfter left

theorem next_self (left : P) : index.next left (some left) = index.newAfter left := by
  simp [next, index.newBetween_self]

theorem lt_next {successor : Option P} (hs : ∀ right ∈ successor, left ≤ right) :
    left < index.next left successor := by
  cases successor with
  | none => exact index.lt_newAfter left
  | some right =>
    rcases (hs right rfl).lt_or_eq with hlt | rfl
    · obtain ⟨position, hp, hl, -⟩ := index.newBetween_spec left right hlt
      simpa [next, hp] using hl
    · rw [next_self]
      exact index.lt_newAfter left

theorem next_lt (hlt : left < right) : index.next left (some right) < right := by
  obtain ⟨position, hp, -, hr⟩ := index.newBetween_spec left right hlt
  simpa [next, hp] using hr

end FractionalIndex

def rationals : FractionalIndex ℚ where
  initial := 0
  newBefore := fun position => position - 1
  newAfter := fun position => position + 1
  newBetween := fun first second => if first < second then some ((first + second) / 2) else none
  newBefore_lt := sub_one_lt
  lt_newAfter := lt_add_one
  newBetween_spec := fun _ _ hlt =>
    ⟨_, if_pos hlt, left_lt_add_div_two.mpr hlt, add_div_two_lt_right.mpr hlt⟩
  newBetween_self := fun _ => if_neg (lt_irrefl _)

-- `V` are the maps of a cell: its metadata, resolved assets and attachments.
structure CellContent (V : Type) where
  cellType : String
  source : String
  executionCount : String
  metadata : V
  resolvedAssets : V
  attachments : V
  executionId : Option String
deriving DecidableEq

structure Cell (P V : Type) where
  id : String
  position : P
  content : CellContent V
deriving DecidableEq

variable {P V : Type}

section Alter

variable (id : String) (change : CellContent V → CellContent V) (cell : Cell P V)

def Cell.alter : Cell P V :=
  if cell.id = id then { cell with content := change cell.content } else cell

@[simp] theorem Cell.alter_id : (cell.alter id change).id = cell.id := by
  unfold Cell.alter
  split <;> rfl

@[simp] theorem Cell.alter_position : (cell.alter id change).position = cell.position := by
  unfold Cell.alter
  split <;> rfl

-- Cells are ordered by position, and by id where positions are equal.
def Cell.key : P ×ₗ String := toLex (cell.position, cell.id)

theorem Cell.alter_key : (cell.alter id change).key = cell.key := by
  simp [Cell.key]

end Alter

variable [LinearOrder P]

def Cell.le (first second : Cell P V) : Prop := first.key ≤ second.key

instance : DecidableRel (Cell.le (P := P) (V := V)) := fun first second =>
  inferInstanceAs (Decidable (first.key ≤ second.key))

instance : Std.Total (Cell.le (P := P) (V := V)) := ⟨fun first second => le_total first.key second.key⟩

instance : IsTrans (Cell P V) Cell.le := ⟨fun _ _ _ => le_trans⟩

structure Notebook (P V : Type) [LinearOrder P] where
  cells : List (Cell P V)
  sorted : cells.Pairwise Cell.le
  unique : (cells.map Cell.id).Nodup

namespace Notebook

def empty : Notebook P V := ⟨[], .nil, .nil⟩

variable (notebook : Notebook P V)

def getCellIds : List String := notebook.cells.map Cell.id

def find (id : String) : Option (Cell P V) := notebook.cells.find? fun cell => cell.id = id

def deleteCell (id : String) : Notebook P V where
  cells := notebook.cells.filter fun cell => cell.id ≠ id
  sorted := notebook.sorted.filter _
  unique := notebook.unique.sublist (filter_sublist.map Cell.id)

-- The cell stands where its position puts it, in place of one with the same id.
def putCell (cell : Cell P V) : Notebook P V where
  cells := (notebook.deleteCell cell.id).cells.orderedInsert Cell.le cell
  sorted := (notebook.deleteCell cell.id).sorted.orderedInsert _ _
  unique := by
    have hperm := perm_orderedInsert Cell.le cell (notebook.deleteCell cell.id).cells
    rw [(hperm.map Cell.id).nodup_iff, map_cons, nodup_cons]
    refine ⟨fun hm => ?_, (notebook.deleteCell cell.id).unique⟩
    obtain ⟨other, ho, hid⟩ := mem_map.mp hm
    have hne := mem_filter.mp ho
    exact absurd hid (by simpa using hne.2)

def updateCell (id : String) (change : CellContent V → CellContent V) : Notebook P V where
  cells := notebook.cells.map (Cell.alter id change)
  sorted := by
    rw [pairwise_map]
    refine notebook.sorted.imp fun hle => ?_
    unfold Cell.le
    rw [Cell.alter_key, Cell.alter_key]
    exact hle
  unique := by
    have hids : (notebook.cells.map (Cell.alter id change)).map Cell.id =
        notebook.cells.map Cell.id := by simp [Function.comp_def]
    rw [hids]
    exact notebook.unique

def updateSource (id source : String) : Notebook P V :=
  notebook.updateCell id fun content => { content with source := source }

def setExecutionId (id : String) (executionId : Option String) : Notebook P V :=
  notebook.updateCell id fun content => { content with executionId := executionId }

def setCellResolvedAssets (id : String) (resolvedAssets : V) : Notebook P V :=
  notebook.updateCell id fun content => { content with resolvedAssets := resolvedAssets }

def setCellAttachments (id : String) (attachments : V) : Notebook P V :=
  notebook.updateCell id fun content => { content with attachments := attachments }

variable (index : FractionalIndex P)

def lastPosition : P :=
  match notebook.cells.getLast? with
  | some last => index.newAfter last.position
  | none => index.initial

def computePosition (afterCellId : Option String) : P :=
  match afterCellId with
  | none =>
    match notebook.cells.head? with
    | some first => index.newBefore first.position
    | none => index.initial
  | some id =>
    match notebook.cells.dropWhile fun cell => cell.id ≠ id with
    | [] => notebook.lastPosition index
    | cell :: rest => index.next cell.position (rest.head?.map Cell.position)

variable [EmptyCollection V]

def newCell (id cellType : String) (position : P) : Cell P V :=
  ⟨id, position, ⟨cellType, "", "null", ∅, ∅, ∅, none⟩⟩

def addCellAfter (id cellType : String) (afterCellId : Option String) : Notebook P V :=
  notebook.putCell (newCell id cellType (notebook.computePosition index afterCellId))

-- An index past the end stands for the end.
def addCell (at_ : Nat) (id cellType : String) : Notebook P V :=
  let clamped := min at_ notebook.getCellIds.length
  let afterCellId := if clamped = 0 then none else notebook.getCellIds[clamped - 1]?
  notebook.addCellAfter index id cellType afterCellId

end Notebook

end Nteract.NotebookDoc
