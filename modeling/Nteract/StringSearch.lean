import Mathlib

namespace Nteract.StringSearch

open List

abbrev Text := List Char

inductive StringLayout
  | Utf8
  | LargeUtf8
  | Utf8View
deriving DecidableEq

-- One batch of the column. A key is the index that dict_key_at reads, whatever its width.
inductive Column
  | Strings (layout : StringLayout) (rows : List (Option Text))
  | Dictionary (keys : List (Option Nat)) (layout : StringLayout) (values : List (Option Text))
deriving DecidableEq

namespace Column

def layout : Column → StringLayout
  | .Strings layout _ | .Dictionary _ layout _ => layout

-- The text of each row. A key without a value is null.
def texts : Column → List (Option Text)
  | .Strings _ rows => rows
  | .Dictionary keys _ values => keys.map fun key => key.bind fun key => values[key]?.join

end Column

def u32 (value : Nat) : Nat := value % 2 ^ 32

def rowsWhere (test : Option Text → Bool) (rows : List (Option Text)) : List Nat :=
  (range rows.length).filter fun i => test rows[i]?.join

variable (toLowercase : Text → Text) (queryLower : Text)

def hit (text : Option Text) : Bool :=
  text.any fun text => decide (queryLower <:+: toLowercase text)

-- Both downcasts are to StringArray, which is the layout `Utf8` alone.
def batchIndices : Column → Except String (List Nat)
  | .Strings .Utf8 rows => .ok (rowsWhere (hit toLowercase queryLower) rows)
  | .Strings .LargeUtf8 _ => .error "expected StringArray for Utf8 column"
  | .Strings .Utf8View _ => .ok []
  | .Dictionary keys .Utf8 values =>
    let dictMatches := values.map (hit toLowercase queryLower)
    .ok ((range keys.length).filter fun i =>
      keys[i]?.join.any fun key => dictMatches[key]?.getD false)
  | .Dictionary .. => .error "expected StringArray for dictionary values"

def searchBatches : Nat → List Column → Except String (List Nat)
  | _, [] => .ok []
  | offset, column :: batches => do
    let found ← batchIndices toLowercase queryLower column
    let rest ← searchBatches (u32 (offset + column.texts.length)) batches
    return found.map (fun i => u32 (offset + i)) ++ rest

def stringContains (batches : List Column) (query : Text) : Except String (List Nat) :=
  searchBatches toLowercase (toLowercase query) 0 batches

theorem rowsWhere_append (test : Option Text → Bool) (rows later : List (Option Text)) :
    rowsWhere test (rows ++ later) =
      rowsWhere test rows ++ (rowsWhere test later).map (rows.length + ·) := by
  unfold rowsWhere
  rw [length_append, range_add, filter_append, filter_map]
  congr 1
  · refine filter_congr fun i hi => ?_
    rw [getElem?_append_left (mem_range.mp hi)]
  · refine congrArg _ (filter_congr fun i _ => ?_)
    simp [getElem?_append_right]

variable {toLowercase queryLower}

-- What is not read at all must have nothing to find.
def Searchable (toLowercase : Text → Text) (queryLower : Text) (column : Column) : Prop :=
  column.layout = .Utf8 ∨ ∃ rows, column = .Strings .Utf8View rows ∧
    rowsWhere (hit toLowercase queryLower) rows = []

theorem batchIndices_searchable (hs : Searchable toLowercase queryLower column) :
    batchIndices toLowercase queryLower column =
      .ok (rowsWhere (hit toLowercase queryLower) column.texts) := by
  rcases hs with hl | ⟨rows, rfl, hr⟩
  · cases column with
    | Strings =>
      obtain rfl := hl
      rfl
    | Dictionary keys _ values =>
      obtain rfl := hl
      simp only [batchIndices, rowsWhere, Column.texts, length_map]
      refine congrArg _ (filter_congr fun i _ => ?_)
      -- what a key stands for was matched before
      rcases hk : keys[i]? with _ | _ | key
      · simp [hk, hit]
      · simp [hk, hit]
      · rcases hv : values[key]? with _ | value <;> simp [hk, hv, hit]
  · simp [batchIndices, Column.texts, hr]

theorem searchable_of_found (hb : batchIndices toLowercase queryLower column = .ok found) :
    found.length ≤ (rowsWhere (hit toLowercase queryLower) column.texts).length ∧
      (found.length = (rowsWhere (hit toLowercase queryLower) column.texts).length →
        Searchable toLowercase queryLower column) := by
  by_cases hl : column.layout = .Utf8
  · rw [batchIndices_searchable (.inl hl)] at hb
    cases hb
    exact ⟨le_refl _, fun _ => .inl hl⟩
  · cases column with
    | Strings layout rows =>
      cases layout with
      | Utf8 => exact absurd rfl hl
      | LargeUtf8 => cases hb
      | Utf8View =>
        cases hb
        exact ⟨Nat.zero_le _, fun he => .inr ⟨rows, rfl, length_eq_zero_iff.mp he.symm⟩⟩
    | Dictionary _ layout => cases layout <;> first | exact absurd rfl hl | cases hb

theorem searchBatches_searchable (offset : Nat)
    (hs : ∀ column ∈ batches, Searchable toLowercase queryLower column) :
    searchBatches toLowercase queryLower (u32 offset) batches =
      .ok ((rowsWhere (hit toLowercase queryLower) (batches.flatMap Column.texts)).map
        fun i => u32 (offset + i)) := by
  induction batches generalizing offset with
  | nil => rfl
  | cons column batches ih =>
    rw [forall_mem_cons] at hs
    have hrest := ih (offset + column.texts.length) hs.2
    rw [searchBatches, batchIndices_searchable hs.1]
    simp only [u32, Nat.mod_add_mod] at hrest ⊢
    rw [hrest, flatMap_cons, rowsWhere_append, map_append, map_map]
    simp only [Function.comp_def, ← Nat.add_assoc]
    rfl

theorem searchable_of_searched
    (hs : searchBatches toLowercase queryLower offset batches = .ok result) :
    result.length ≤
        (rowsWhere (hit toLowercase queryLower) (batches.flatMap Column.texts)).length ∧
      (result.length =
          (rowsWhere (hit toLowercase queryLower) (batches.flatMap Column.texts)).length →
        ∀ column ∈ batches, Searchable toLowercase queryLower column) := by
  induction batches generalizing offset result with
  | nil =>
    cases hs
    exact ⟨le_refl _, fun _ => nofun⟩
  | cons column batches ih =>
    rw [searchBatches] at hs
    cases hb : batchIndices toLowercase queryLower column with
    | error => simp [hb, bind, Except.bind] at hs
    | ok found =>
      cases hr : searchBatches toLowercase queryLower (u32 (offset + column.texts.length))
          batches with
      | error => simp [hb, hr, bind, Except.bind] at hs
      | ok rest =>
        have he : result = found.map (fun i => u32 (offset + i)) ++ rest := by
          simpa [hb, hr, bind, Except.bind, pure, Except.pure, eq_comm] using hs
        obtain ⟨hle, hcolumn⟩ := searchable_of_found hb
        obtain ⟨hlater, hbatches⟩ := ih hr
        rw [he, flatMap_cons, rowsWhere_append]
        simp only [length_append, length_map, forall_mem_cons]
        exact ⟨by omega, fun heq => ⟨hcolumn (by omega), hbatches (by omega)⟩⟩

-- Every row whose text contains the query in any case, and no other.
theorem string_search_exact (toLowercase : Text → Text) (batches : List Column) (query : Text) :
    let matching := rowsWhere (hit toLowercase (toLowercase query)) (batches.flatMap Column.texts)
    stringContains toLowercase batches query = .ok matching ↔
      (∀ column ∈ batches, Searchable toLowercase (toLowercase query) column) ∧
        ∀ i ∈ matching, i < 2 ^ 32 := by
  intro matching
  have hf : (∀ i ∈ matching, i < 2 ^ 32) ↔ matching.map (fun i => u32 (0 + i)) = matching := by
    nth_rewrite 3 [← map_id matching]
    rw [map_inj_left]
    refine forall₂_congr fun i _ => ?_
    rw [Nat.zero_add, u32, id, Nat.mod_eq_iff_lt (by decide)]
  constructor
  · intro he
    have hs := (searchable_of_searched he).2 rfl
    have hw := (searchBatches_searchable 0 hs).symm.trans he
    exact ⟨hs, hf.mpr (Except.ok.inj hw)⟩
  · rintro ⟨hs, hi⟩
    rw [← hf.mp hi]
    exact searchBatches_searchable 0 hs

theorem dictionary_searched :
    stringContains id [.Dictionary [some 1, none, some 0] .Utf8 [some ['a'], some ['b']]] ['a'] =
      .ok [2] :=
  (string_search_exact id _ ['a']).mpr ⟨by simp [Searchable, Column.layout], by decide⟩

-- A large column and a dictionary over one are errors, and in a view nothing is found.
theorem other_layouts_lost :
    (stringContains id [.Strings .LargeUtf8 [some ['a']]] ['a'] =
      .error "expected StringArray for Utf8 column" ∧
    stringContains id [.Dictionary [some 0] .LargeUtf8 [some ['a']]] ['a'] =
      .error "expected StringArray for dictionary values" ∧
    stringContains id [.Strings .Utf8View [some ['a']]] ['a'] = .ok []) ∧
    rowsWhere (hit id ['a']) [some ['a']] = [0] := by
  decide

end Nteract.StringSearch
