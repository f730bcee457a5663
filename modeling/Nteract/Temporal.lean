import Mathlib

namespace Nteract.Temporal

open List

inductive TimeUnit
  | Second
  | Millisecond
  | Microsecond
  | Nanosecond

inductive DataType
  | Timestamp (unit : TimeUnit)
  | Date32
  | Date64
  | Int64

-- The array holds a value also where the cell is null.
structure Cell where
  value : Int
  isNull : Bool

-- The casts to u32 and to usize, which has at least 32 bits.
def asUnsigned (bits : Nat) (value : Int) : Nat := (value % 2 ^ bits).toNat

def timestampCellMs (value : Int) : DataType → Option Int
  | .Timestamp .Millisecond => some value
  | .Timestamp .Microsecond => some (value.tdiv 1000)
  | .Timestamp .Nanosecond => some (value.tdiv 1000000)
  | .Timestamp .Second => some (value * 1000)
  | .Date32 => some (value * 86400000)
  | .Date64 => some value
  | .Int64 => none

section Text

-- DateTime::from_timestamp, and a date as text, with or without the time.
variable {Date : Type} (fromTimestamp : Int → Nat → Option Date)
  (format : Date → Option String → Bool → String)

def formatTimestampMs (ms : Int) (tz : Option String) (hasTime : Bool) : String :=
  match fromTimestamp (ms.tdiv 1000) (asUnsigned 32 (ms.tmod 1000 * 1000000)) with
  | none => toString ms
  | some date => format date tz hasTime

def DataType.hasTime : DataType → Bool
  | .Timestamp _ => true
  | _ => false

def cellString (type : DataType) (tz : Option String) (cell : Cell) : String :=
  if cell.isNull then ""
  else match timestampCellMs cell.value type with
    | some ms => formatTimestampMs fromTimestamp format ms tz type.hasTime
    | none => toString cell.value

end Text

def extractTimestampMs (type : DataType) (cells : List Cell) : List Int :=
  match type with
  | .Int64 => (cells.filter (!·.isNull)).map (·.value)
  | type => cells.filterMap fun cell => timestampCellMs cell.value type

-- The bounds, all of them multiples of 2 ^ 7, which the source converts to f64 at last.
structure HistogramBin where
  x0 : Int
  x1 : Int
  count : Nat

def MS_PER_HOUR : Int := 3600000
def MS_PER_DAY : Int := 86400000
def MS_PER_MONTH : Int := 30 * MS_PER_DAY
def MS_PER_YEAR : Int := 365 * MS_PER_DAY

def binWidthMs (rangeMs : Int) : Int :=
  if rangeMs < 48 * MS_PER_HOUR then MS_PER_HOUR
  else if rangeMs < 90 * MS_PER_DAY then MS_PER_DAY
  else if rangeMs < 3 * MS_PER_YEAR then MS_PER_MONTH
  else MS_PER_YEAR

section Bins

variable (usizeBits : Nat) (start width : Int) (count : Nat)

def binIndex (value : Int) : Nat :=
  let index := asUnsigned usizeBits ((value - start).tdiv width)
  if index ≥ count then count - 1 else index

def histogramBin (i count : Nat) : HistogramBin :=
  ⟨start + i * width, start + (i + 1) * width, count⟩

def countValue (bins : List HistogramBin) (value : Int) : List HistogramBin :=
  bins.modify (binIndex usizeBits start width count value) fun bin => { bin with count := bin.count + 1 }

def fillBins (values : List Int) : List HistogramBin :=
  values.foldl (countValue usizeBits start width count)
    ((List.range count).map (histogramBin start width · 0))

end Bins

def temporalHistogram (usizeBits : Nat) (values : List Int) : List HistogramBin :=
  match values.min?, values.max? with
  | some minMs, some maxMs =>
    let width := binWidthMs (maxMs - minMs)
    let start := minMs.tdiv width * width
    let stop := (maxMs.tdiv width + 1) * width
    let count := asUnsigned usizeBits ((stop - start).tdiv width)
    if count > 100 then fillBins usizeBits start ((stop - start).tdiv 100) 100 values
    else fillBins usizeBits start width count values
  | _, _ => []

-- The instant that a cell stores, rounded down to the millisecond.
def instantMs (type : DataType) (cell : Cell) : Int :=
  match type with
  | .Timestamp .Microsecond => cell.value / 1000
  | .Timestamp .Nanosecond => cell.value / 1000000
  | .Timestamp .Second => cell.value * 1000
  | .Date32 => cell.value * 86400000
  | _ => cell.value

def shown (cells : List Cell) : List Cell := cells.filter (!·.isNull)

def WholeMs (type : DataType) (cell : Cell) : Prop :=
  match type with
  | .Timestamp .Microsecond => 1000 ∣ cell.value
  | .Timestamp .Nanosecond => 1000000 ∣ cell.value
  | _ => True

-- The conversions of a column that neither count a null nor round a time before 1970 up.
structure Aligned {Date : Type} (fromTimestamp : Int → Nat → Option Date) (type : DataType)
    (cells : List Cell) : Prop where
  nulls : type = .Int64 ∨ ∀ cell ∈ cells, cell.isNull = false
  whole : ∀ cell ∈ shown cells, 0 ≤ cell.value ∨ WholeMs type cell
  seconds : type ≠ .Int64 → ∀ cell ∈ shown cells,
    (fromTimestamp (instantMs type cell / 1000)
      (instantMs type cell % 1000 * 1000000).toNat).isSome →
    0 ≤ instantMs type cell ∨ 1000 ∣ instantMs type cell
  start : ∀ low high, ((shown cells).map (instantMs type)).min? = some low →
    ((shown cells).map (instantMs type)).max? = some high →
      0 ≤ low ∨ binWidthMs (high - low) ∣ low

-- The bins are contiguous, and every value is counted in the one bin that it lies in.
def Binned (type : DataType) (cells : List Cell) (bins : List HistogramBin) : Prop :=
  ∃ start width : Int, ∃ count : Nat, ∃ place : Cell → Nat, 0 < width ∧
    bins = (List.range count).map (fun i : Nat =>
      ⟨start + i * width, start + (i + 1) * width, cells.countP (place · = i)⟩) ∧
    (∀ cell ∈ cells, place cell < count ∧ start + place cell * width ≤ instantMs type cell ∧
      instantMs type cell < start + (place cell + 1) * width) ∧
    (bins.map (·.count)).sum = cells.length

theorem timestampCellMs_eq (hw : 0 ≤ cell.value ∨ WholeMs type cell) (ht : type ≠ .Int64) :
    timestampCellMs cell.value type = some (instantMs type cell) := by
  have hd : ∀ unit : Int, 0 ≤ cell.value ∨ unit ∣ cell.value →
      cell.value.tdiv unit = cell.value / unit := by
    rintro unit (hv | hv)
    · exact Int.tdiv_eq_ediv_of_nonneg hv
    · exact Int.tdiv_eq_ediv_of_dvd hv
  cases type with
  | Timestamp unit =>
    cases unit with
    | Microsecond => exact congrArg some (hd 1000 hw)
    | Nanosecond => exact congrArg some (hd 1000000 hw)
    | Second | Millisecond => rfl
  | Date32 | Date64 => rfl
  | Int64 => exact absurd rfl ht

theorem extractTimestampMs_eq (ht : type ≠ .Int64)
    (hw : ∀ cell ∈ cells, 0 ≤ cell.value ∨ WholeMs type cell) :
    extractTimestampMs type cells = cells.map (instantMs type) := by
  have he : extractTimestampMs type cells = cells.filterMap fun cell =>
      timestampCellMs cell.value type := by
    cases type <;> first | rfl | exact absurd rfl ht
  rw [he, ← filterMap_eq_map]
  exact filterMap_congr fun cell hc => timestampCellMs_eq (hw cell hc) ht

theorem extractTimestampMs_shown (hn : type = .Int64 ∨ ∀ cell ∈ cells, cell.isNull = false)
    (hw : ∀ cell ∈ shown cells, 0 ≤ cell.value ∨ WholeMs type cell) :
    extractTimestampMs type cells = (shown cells).map (instantMs type) := by
  by_cases ht : type = .Int64
  · subst ht
    rfl
  · have hs : shown cells = cells :=
      filter_eq_self.mpr fun cell hc => by simp [hn.resolve_left ht cell hc]
    rw [hs] at hw ⊢
    exact extractTimestampMs_eq ht hw

variable {usizeBits : Nat} {start width : Int} {count : Nat} {values : List Int}

theorem sum_countP (place : Int → Nat) (hp : ∀ value ∈ values, place value < count) :
    ((List.range count).map fun i => values.countP (place · = i)).sum = values.length := by
  have hs := Multiset.sum_count_eq_card (s := .range count) (m := values.map place)
    (by simpa using hp)
  simp only [Multiset.coe_count, count_eq_countP, countP_map, Multiset.coe_card, length_map] at hs
  exact hs

theorem foldl_countValue (counts : Nat → Nat) : values.foldl (countValue usizeBits start width count)
        ((List.range count).map fun i => histogramBin start width i (counts i)) =
      (List.range count).map fun i => histogramBin start width i
        (counts i + values.countP (binIndex usizeBits start width count · = i)) := by
  induction values generalizing counts with
  | nil => simp
  | cons value values ih =>
    have hm : countValue usizeBits start width count
        ((List.range count).map fun i => histogramBin start width i (counts i)) value =
        (List.range count).map fun i => histogramBin start width i
          (counts i + if binIndex usizeBits start width count value = i then 1 else 0) := by
      refine ext_getElem? fun j => ?_
      by_cases hj : j < count
      · by_cases hb : binIndex usizeBits start width count value = j <;>
          simp [countValue, histogramBin, hj, hb]
      · simp [countValue, hj]
    rw [foldl_cons, hm, ih]
    simp [countP_cons, add_assoc, add_comm]

theorem fillBins_eq : fillBins usizeBits start width count values = (List.range count).map fun i =>
    histogramBin start width i (values.countP (binIndex usizeBits start width count · = i)) := by
  have hf := @foldl_countValue usizeBits start width count values fun _ => 0
  simp only [Nat.zero_add] at hf
  exact hf

theorem binIndex_lt (hc : 0 < count) (value : Int) :
    binIndex usizeBits start width count value < count := by
  unfold binIndex
  dsimp only
  split <;> omega

theorem asUnsigned_of_lt (hb : 32 ≤ usizeBits) {place : Nat} (hp : place < 2 ^ 32) :
    asUnsigned usizeBits place = place := by
  have hle : 2 ^ 32 ≤ 2 ^ usizeBits := Nat.pow_le_pow_right (by decide) hb
  have hm : place % 2 ^ usizeBits = place := Nat.mod_eq_of_lt (by omega)
  rw [asUnsigned]
  exact_mod_cast hm

theorem binIndex_spec (hb : 32 ≤ usizeBits) (hw : 0 < width) (hc : count < 2 ^ 32)
    (hs : start ≤ value) (he : value < start + count * width) :
    let place := binIndex usizeBits start width count value
    start + place * width ≤ value ∧ value < start + (place + 1) * width := by
  have hq : (value - start) / width < count := Int.ediv_lt_of_lt_mul hw (by linarith)
  have hn : 0 ≤ (value - start) / width := Int.ediv_nonneg (by omega) hw.le
  obtain ⟨place, hp⟩ := Int.eq_ofNat_of_zero_le hn
  have hu : asUnsigned usizeBits ((value - start).tdiv width) = place := by
    rw [Int.tdiv_eq_ediv_of_nonneg (by omega), hp]
    exact asUnsigned_of_lt hb (by omega)
  have hl := Int.ediv_mul_le (value - start) hw.ne'
  have hr := Int.lt_ediv_add_one_mul_self (value - start) hw
  rw [hp] at hq hl hr
  simp only [binIndex, hu, if_neg (show ¬ place ≥ count by omega)]
  exact ⟨by linarith, by linarith⟩

theorem binWidthMs_spec (rangeMs : Int) (hr : rangeMs ≤ 2 * 10 ^ 18) :
    3600000 ≤ binWidthMs rangeMs ∧ 100 ∣ binWidthMs rangeMs ∧
      rangeMs < 2 ^ 31 * binWidthMs rangeMs := by
  simp only [binWidthMs, MS_PER_HOUR, MS_PER_DAY, MS_PER_MONTH, MS_PER_YEAR]
  split_ifs <;> omega

theorem tmod_nonneg_iff {value width : Int} : 0 ≤ value.tmod width ↔ 0 ≤ value ∨ width ∣ value := by
  have hs := Int.sign_tmod value width
  rw [← Int.sign_nonneg_iff, hs]
  split
  · rename_i hd
    simp [hd]
  · rename_i hd
    simp [hd]

-- The bounds of the bins neither overflow nor lose digits as f64.
def InRange (value : Int) : Prop := -10 ^ 18 ≤ value ∧ value ≤ 10 ^ 18

-- Every width is a multiple of a hundred, so that the cap loses nothing of the range.
theorem temporalHistogram_eq (hb : 32 ≤ usizeBits) (hl : values.min? = some low)
    (hh : values.max? = some high) (hv : ∀ value ∈ values, InRange value) :
    ∃ start width : Int, ∃ count : Nat, 0 < width ∧ 0 < count ∧ count < 2 ^ 32 ∧
      (start ≤ low ↔ 0 ≤ low ∨ binWidthMs (high - low) ∣ low) ∧ high < start + count * width ∧
      temporalHistogram usizeBits values = fillBins usizeBits start width count values := by
  obtain ⟨hlow, hmin⟩ := List.min?_eq_some_iff.mp hl
  obtain ⟨hhigh, hmax⟩ := List.max?_eq_some_iff.mp hh
  have hle := hmin high hhigh
  obtain ⟨hfirst, -⟩ := hv low hlow
  obtain ⟨-, hlast⟩ := hv high hhigh
  obtain ⟨hw, ⟨part, hpart⟩, hrange⟩ := binWidthMs_spec (high - low) (by omega)
  simp only [temporalHistogram, hl, hh]
  rw [← tmod_nonneg_iff]
  generalize binWidthMs (high - low) = width at *
  have hpos : 0 < width := by omega
  have hlo := Int.mul_tdiv_add_tmod low width
  have hhi := Int.mul_tdiv_add_tmod high width
  have hlt := Int.tmod_lt_of_pos high hpos
  have hgt := Int.lt_tmod_of_pos high hpos
  have hgl := Int.tmod_lt_of_pos low hpos
  obtain ⟨count, hcount⟩ := Int.eq_ofNat_of_zero_le (a := high.tdiv width - low.tdiv width)
    (by have := Int.tdiv_le_tdiv hpos hle; omega)
  generalize low.tdiv width = first at *
  generalize high.tdiv width = last at *
  obtain rfl : last = first + count := by omega
  have hd : (first + count + 1) * width - first * width = (count + 1 : Nat) * width := by
    push_cast
    ring
  have hc : count + 1 < 2 ^ 32 := by
    have hm : (count : Int) * width < (2 ^ 31 + 2) * width := by linarith
    have := Int.lt_of_mul_lt_mul_right hm hpos.le
    omega
  have hs : first * width ≤ low ↔ 0 ≤ low.tmod width := by
    constructor <;> intro h <;> linarith
  have he : high < first * width + (count + 1 : Nat) * width := by
    push_cast
    linarith
  rw [hd, Int.mul_tdiv_cancel _ hpos.ne', asUnsigned_of_lt hb hc]
  split
  · have hcap : ((count + 1 : Nat) * width : Int) = 100 * ((count + 1 : Nat) * part) := by
      rw [hpart, Int.mul_left_comm]
    have hp : 0 < part := by omega
    rw [hcap] at he ⊢
    rw [Int.mul_tdiv_cancel_left _ (by decide)]
    exact ⟨_, _, 100, by positivity, by decide, by decide, hs, he, rfl⟩
  · exact ⟨_, width, count + 1, hpos, by omega, hc, hs, he, rfl⟩

theorem sum_fillBins (hc : 0 < count) :
    ((fillBins usizeBits start width count values).map (·.count)).sum = values.length := by
  rw [fillBins_eq, map_map]
  exact sum_countP _ fun value _ => binIndex_lt hc value

theorem max?_of_min? (hl : values.min? = some low) : ∃ high, values.max? = some high := by
  refine Option.ne_none_iff_exists'.mp fun hn => ?_
  rw [max?_eq_none_iff.mp hn] at hl
  cases hl

-- Only the first bin can start after a value.
theorem binned_iff (hb : 32 ≤ usizeBits) (hr : ∀ cell ∈ cells, InRange (instantMs type cell)) :
    Binned type cells (temporalHistogram usizeBits (cells.map (instantMs type))) ↔
      ∀ low high, (cells.map (instantMs type)).min? = some low →
        (cells.map (instantMs type)).max? = some high → 0 ≤ low ∨ binWidthMs (high - low) ∣ low := by
  have hv : ∀ value ∈ cells.map (instantMs type), InRange value := forall_mem_map.mpr hr
  cases hl : (cells.map (instantMs type)).min? with
  | none =>
    obtain rfl := map_eq_nil_iff.mp (min?_eq_none_iff.mp hl)
    refine iff_of_true ⟨0, 1, 0, fun _ => 0, by decide, rfl, nofun, rfl⟩ ?_
    rintro _ _ ⟨⟩
  | some low =>
    obtain ⟨hlow, hmin⟩ := min?_eq_some_iff.mp hl
    obtain ⟨high, hh⟩ := max?_of_min? hl
    obtain ⟨start, width, count, hw, hc, hlt, hs, he, hist⟩ := temporalHistogram_eq hb hl hh hv
    rw [hist]
    constructor
    · rintro ⟨first, _, total, place, hpos, hbins, hp, -⟩ _ _ ⟨⟩ hmax
      cases hh.symm.trans hmax
      rw [← hs]
      obtain ⟨cell, hcell, rfl⟩ := mem_map.mp hlow
      obtain ⟨hplace, hin, -⟩ := hp cell hcell
      rw [fillBins_eq] at hbins
      have hlen := congrArg List.length hbins
      simp only [length_map, length_range] at hlen
      have hfirst := congrArg (fun bins => (bins.map HistogramBin.x0)[0]?) hbins
      have htotal : 0 < total := by omega
      simp [hc, htotal, histogramBin] at hfirst
      have := Int.mul_nonneg (Int.natCast_nonneg (place cell)) hpos.le
      omega
    · intro hstart
      replace hstart := hs.mpr (hstart low high rfl hh)
      refine ⟨start, width, count, fun cell => binIndex usizeBits start width count
        (instantMs type cell), hw, ?_, fun cell hm => ⟨binIndex_lt hc _, ?_⟩, ?_⟩
      · rw [fillBins_eq]
        exact map_congr_left fun i _ => by simp [histogramBin, countP_map, Function.comp_def]
      · have hmem : instantMs type cell ∈ cells.map (instantMs type) := mem_map_of_mem hm
        exact binIndex_spec hb hw hlt (hstart.trans (hmin _ hmem))
          (((max?_eq_some_iff.mp hh).2 _ hmem).trans_lt he)
      · rw [sum_fillBins hc, length_map]

theorem shown_of_binned (hb : 32 ≤ usizeBits) (hr : ∀ cell ∈ cells, InRange (instantMs type cell))
    (hp : Binned type (shown cells)
      (temporalHistogram usizeBits (cells.map (instantMs type)))) : shown cells = cells := by
  obtain ⟨_, _, _, _, -, -, -, hsum⟩ := hp
  refine (filter_sublist).eq_of_length (hsum.symm.trans ?_)
  cases hl : (cells.map (instantMs type)).min? with
  | none =>
    obtain rfl := map_eq_nil_iff.mp (min?_eq_none_iff.mp hl)
    rfl
  | some low =>
    obtain ⟨high, hh⟩ := max?_of_min? hl
    obtain ⟨_, _, _, -, hc, -, -, -, hist⟩ :=
      temporalHistogram_eq hb hl hh (forall_mem_map.mpr hr)
    rw [hist, sum_fillBins hc, length_map]

section Text

variable {Date : Type} {fromTimestamp : Int → Nat → Option Date}
  {format : Date → Option String → Bool → String}

theorem formatTimestampMs_eq (hs : 0 ≤ ms ∨ 1000 ∣ ms)
    (hd : fromTimestamp (ms / 1000) (ms % 1000 * 1000000).toNat = some date) :
    formatTimestampMs fromTimestamp format ms tz hasTime = format date tz hasTime := by
  have ht : ms.tdiv 1000 = ms / 1000 ∧ ms.tmod 1000 = ms % 1000 := by
    rcases hs with hs | hs
    · exact ⟨Int.tdiv_eq_ediv_of_nonneg hs, Int.tmod_eq_emod_of_nonneg hs⟩
    · exact ⟨Int.tdiv_eq_ediv_of_dvd hs, by rw [Int.tmod_eq_zero_of_dvd hs]; omega⟩
  have hu : asUnsigned 32 (ms % 1000 * 1000000) = (ms % 1000 * 1000000).toNat := by
    rw [asUnsigned, Int.emod_eq_of_lt (by omega) (by omega)]
  simp [formatTimestampMs, ht, hu, hd]

-- A negative remainder is no number of nanoseconds.
theorem formatTimestampMs_number
    (hf : ∀ seconds nanos, 2 * 10 ^ 9 ≤ nanos → fromTimestamp seconds nanos = none)
    (hs : ¬ (0 ≤ ms ∨ 1000 ∣ ms)) :
    formatTimestampMs fromTimestamp format ms tz hasTime = toString ms := by
  rw [← tmod_nonneg_iff] at hs
  have hgt := Int.lt_tmod_of_pos ms (show (0 : Int) < 1000 by decide)
  have hn : 2 * 10 ^ 9 ≤ asUnsigned 32 (ms.tmod 1000 * 1000000) := by
    rw [asUnsigned, ← Int.add_emod_right, Int.emod_eq_of_lt (by omega) (by omega)]
    omega
  rw [formatTimestampMs, hf _ _ hn]

end Text

theorem temporal_values_placed {Date : Type} (fromTimestamp : Int → Nat → Option Date)
    (hf : ∀ seconds nanos, 2 * 10 ^ 9 ≤ nanos → fromTimestamp seconds nanos = none)
    (format : Date → Option String → Bool → String)
    (hn : ∀ date tz hasTime, ∀ ms : Int, format date tz hasTime ≠ toString ms)
    (hb : 32 ≤ usizeBits) (type : DataType) (tz : Option String) (cells : List Cell)
    (hr : ∀ cell ∈ cells, InRange (instantMs type cell)) :
    let placed := Binned type (shown cells)
        (temporalHistogram usizeBits (extractTimestampMs type cells)) ∧
      (type ≠ .Int64 → ∀ cell ∈ shown cells, ∀ date,
        fromTimestamp (instantMs type cell / 1000) (instantMs type cell % 1000 * 1000000).toNat =
          some date →
        cellString fromTimestamp format type tz cell = format date tz type.hasTime)
    (Aligned fromTimestamp type cells → placed) ∧
      ((∀ cell ∈ cells, WholeMs type cell) → placed → Aligned fromTimestamp type cells) := by
  have hshown : ∀ cell ∈ shown cells, cell ∈ cells ∧ cell.isNull = false := fun cell hc => by
    simpa [shown] using hc
  have hrange : ∀ cell ∈ shown cells, InRange (instantMs type cell) := fun cell hc =>
    hr cell (hshown cell hc).1
  have htext : ∀ cell ∈ shown cells, type ≠ .Int64 → 0 ≤ cell.value ∨ WholeMs type cell →
      cellString fromTimestamp format type tz cell =
        formatTimestampMs fromTimestamp format (instantMs type cell) tz type.hasTime := by
    intro cell hc ht hw
    simp [cellString, (hshown cell hc).2, timestampCellMs_eq hw ht]
  refine ⟨fun ha => ⟨?_, fun ht cell hc date hd => ?_⟩, fun hw ⟨hp, ht⟩ => ?_⟩
  · rw [extractTimestampMs_shown ha.nulls ha.whole]
    exact (binned_iff hb hrange).mpr ha.start
  · rw [htext cell hc ht (ha.whole cell hc)]
    refine formatTimestampMs_eq (ha.seconds ht cell hc ?_) hd
    rw [hd]
    rfl
  · have hall : ∀ cell ∈ shown cells, 0 ≤ cell.value ∨ WholeMs type cell := fun cell hc =>
      .inr (hw cell (hshown cell hc).1)
    have hnulls : type = .Int64 ∨ ∀ cell ∈ cells, cell.isNull = false := by
      refine or_iff_not_imp_left.mpr fun hi cell hc => ?_
      rw [extractTimestampMs_eq hi fun cell hc => .inr (hw cell hc)] at hp
      rw [← shown_of_binned hb hr hp] at hc
      exact (hshown cell hc).2
    refine ⟨hnulls, hall, fun hi cell hc hsome => ?_, ?_⟩
    · by_contra hs
      obtain ⟨date, hd⟩ := Option.isSome_iff_exists.mp hsome
      have he := ht hi cell hc date hd
      rw [htext cell hc hi (hall cell hc), formatTimestampMs_number hf hs] at he
      exact hn _ _ _ _ he.symm
    · rw [extractTimestampMs_shown hnulls hall] at hp
      exact (binned_iff hb hrange).mp hp

def sampleTimestamp (seconds : Int) (nanos : Nat) : Option Int :=
  if nanos < 10 ^ 9 then some seconds else none

theorem date_ne_number (ms : Int) : "Dec 31, 1969" ≠ toString ms := by
  intro he
  rw [Int.toString_eq_repr, Int.repr_eq_if] at he
  split at he
  · rw [Nat.repr_eq_ofList_toDigits] at he
    have hm : 'D' ∈ Nat.toDigits 10 ms.toNat := by
      rw [← String.toList_ofList (l := Nat.toDigits 10 ms.toNat), ← he]
      decide +kernel
    exact absurd (Nat.isDigit_of_mem_toDigits (by decide) (by decide) hm) (by decide)
  · have hh := congrArg (fun text => text.toList.head?) he
    simp at hh

-- New Year's Eve 1969 and a day a month later.
theorem whole_days_placed :
    let days : List Cell := [⟨-1, false⟩, ⟨30, false⟩]
    ((temporalHistogram 32 (extractTimestampMs .Date32 days)).map (·.count)).sum = 2 ∧
      ∀ cell ∈ days,
        cellString sampleTimestamp (fun _ _ _ => "Dec 31, 1969") .Date32 none cell =
          "Dec 31, 1969" := by
  intro days
  have ha : Aligned sampleTimestamp .Date32 days := by
    refine ⟨.inr (by decide), fun _ _ => .inr trivial, fun _ cell hc _ => ?_, ?_⟩
    · have hall : ∀ cell ∈ days, 1000 ∣ instantMs .Date32 cell := by decide
      exact .inr (hall cell (mem_of_mem_filter hc))
    · intro low high hl hh
      cases hl
      cases hh
      decide
  obtain ⟨⟨_, _, _, _, -, -, -, hs⟩, ht⟩ := (temporal_values_placed sampleTimestamp
    (fun seconds nanos hn => if_neg (by omega)) (fun _ _ _ => "Dec 31, 1969")
    (fun _ _ _ => date_ne_number) (le_refl 32) .Date32 none days
    (by simp [days, InRange, instantMs])).1 ha
  refine ⟨hs, fun cell hc => ?_⟩
  have hshown : shown days = days := rfl
  exact ht (fun h => by cases h) cell (hshown ▸ hc) (instantMs .Date32 cell / 1000)
    (by revert cell; simp [days, sampleTimestamp, instantMs])

-- One millisecond before 1970 is shown as a number and counted in a bin from 1970, and a null is
-- counted.
theorem before_epoch_misplaced :
    cellString sampleTimestamp (fun _ _ _ => "Dec 31, 1969") .Date64 none ⟨-1, false⟩ = "-1" ∧
    (temporalHistogram 32 (extractTimestampMs .Date64 [⟨-1, false⟩, ⟨0, true⟩])).map
      (fun bin => (bin.x0, bin.x1, bin.count)) = [(0, 3600000, 2)] := by
  decide +kernel

end Nteract.Temporal
