import Mathlib

namespace Nteract.Lib

open List

-- An association list with at most one entry for each key.
structure Table (κ ν : Type) where
  entries : List (κ × ν)
  nodup : (entries.map Prod.fst).Nodup
deriving DecidableEq

namespace Table

variable {κ ν : Type}

def empty : Table κ ν := ⟨[], nodup_nil⟩

def mapValues (change : κ → ν → ν) (table : Table κ ν) : Table κ ν where
  entries := table.entries.map fun entry => (entry.1, change entry.1 entry.2)
  nodup := by
    rw [map_map]
    exact table.nodup

variable [DecidableEq κ]

def find (table : Table κ ν) (key : κ) : Option ν := table.entries.lookup key

def adjust (key : κ) (change : ν → ν) (table : Table κ ν) : Table κ ν :=
  table.mapValues fun other value => if other = key then change value else value

variable {key : κ} {table : Table κ ν}

theorem lookup_eq_some_iff {entries : List (κ × ν)} (hn : (entries.map Prod.fst).Nodup) :
    entries.lookup key = some value ↔ (key, value) ∈ entries := by
  induction entries with
  | nil => simp
  | cons entry entries ih =>
    obtain ⟨other, _⟩ := entry
    rw [map_cons, nodup_cons] at hn
    by_cases he : key = other
    · subst he
      have ho : ∀ later, (key, later) ∉ entries := by
        intro later hm
        exact hn.1 (mem_map.mpr ⟨_, hm, rfl⟩)
      simp [ho, eq_comm]
    · have hb : (key == other) = false := by simpa using he
      simp [lookup_cons, hb, ih hn.2, he]

theorem not_mem_keys (hk : table.find key = none) : key ∉ table.entries.map Prod.fst := by
  intro hm
  obtain ⟨entry, he, hf⟩ := mem_map.mp hm
  have hne := lookup_eq_none_iff.mp hk entry he
  simp [hf] at hne

theorem find_eq_some : table.find key = some value ↔ (key, value) ∈ table.entries :=
  lookup_eq_some_iff table.nodup

-- A key that is already there keeps its value.
def add (key : κ) (value : ν) (table : Table κ ν) : Table κ ν :=
  if hk : table.find key = none then
    { entries := table.entries ++ [(key, value)]
      nodup := by
        rw [map_append, nodup_append]
        refine ⟨table.nodup, by simp, ?_⟩
        intro first hf second hs he
        simp only [map_cons, map_nil, mem_singleton] at hs
        exact not_mem_keys hk (hs ▸ he ▸ hf) }
  else
    table

@[simp] theorem find_empty (key : κ) : (empty : Table κ ν).find key = none := rfl

theorem lookup_map {μ : Type} (change : κ → ν → μ) (entries : List (κ × ν)) (key : κ) :
    (entries.map fun entry => (entry.1, change entry.1 entry.2)).lookup key =
      (entries.lookup key).map (change key) := by
  induction entries with
  | nil => rfl
  | cons entry _ ih =>
    obtain ⟨other, _⟩ := entry
    by_cases he : key = other
    · simp [he]
    · have hb : (key == other) = false := by simpa using he
      simpa [lookup_cons, hb] using ih

theorem lookup_filter (keep : κ → Bool) (entries : List (κ × ν)) (key : κ) :
    (entries.filter fun entry => keep entry.1).lookup key =
      if keep key then entries.lookup key else none := by
  induction entries with
  | nil => simp
  | cons entry _ ih =>
    obtain ⟨other, _⟩ := entry
    by_cases he : key = other
    · subst he
      cases hk : keep key <;> simp [hk, ih]
    · have hb : (key == other) = false := by simpa using he
      cases hk : keep other <;> simp [hk, lookup_cons, hb, ih]

@[simp] theorem find_mapValues (change : κ → ν → ν) (table : Table κ ν) (key : κ) :
    (table.mapValues change).find key = (table.find key).map (change key) :=
  lookup_map change table.entries key

theorem adjust_self (hf : table.find key = some value) (hc : change value = value) :
    table.adjust key change = table := by
  have he : (table.adjust key change).entries = table.entries := by
    refine (map_congr_left fun entry hm => ?_).trans (map_id _)
    obtain ⟨other, held⟩ := entry
    by_cases hk : other = key
    · subst hk
      have hv : held = value := Option.some_injective _ ((find_eq_some.mpr hm).symm.trans hf)
      simp [hv, hc]
    · simp [hk]
  cases table
  simp_all [adjust, mapValues]

theorem find_adjust (key other : κ) (change : ν → ν) (table : Table κ ν) :
    (table.adjust key change).find other =
      if other = key then (table.find other).map change else table.find other := by
  unfold adjust
  by_cases he : other = key <;> simp [he]

theorem find_add (key other : κ) (value : ν) (table : Table κ ν) :
    (table.add key value).find other =
      if other = key then some ((table.find key).getD value) else table.find other := by
  unfold add
  split
  · rename_i hk
    unfold find at hk ⊢
    rw [lookup_append]
    by_cases he : other = key
    · subst he
      simp
    · have hb : (other == key) = false := by simpa using he
      simp [he, hb, lookup_cons]
  · rename_i hk
    obtain ⟨_, hs⟩ := Option.ne_none_iff_exists'.mp hk
    by_cases he : other = key
    · subst he
      simp [hs]
    · simp [he]

-- An entry that is there is replaced, any other one is added.
def set (key : κ) (value : ν) (table : Table κ ν) : Table κ ν :=
  (table.add key value).adjust key fun _ => value

theorem find_set (key other : κ) (value : ν) (table : Table κ ν) :
    (table.set key value).find other = if other = key then some value else table.find other := by
  unfold set
  rw [find_adjust, find_add]
  by_cases he : other = key <;> simp [he]

def remove (key : κ) (table : Table κ ν) : Table κ ν where
  entries := table.entries.filter fun entry => entry.1 ≠ key
  nodup := table.nodup.sublist (filter_sublist.map Prod.fst)

theorem find_remove (key other : κ) (table : Table κ ν) :
    (table.remove key).find other = if other = key then none else table.find other :=
  (lookup_filter (· ≠ key) table.entries other).trans (by simp [find])

theorem remove_absent (hk : table.find key = none) : table.remove key = table := by
  have he : table.entries.filter (fun entry => entry.1 ≠ key) = table.entries := by
    refine filter_eq_self.mpr fun entry hm => decide_eq_true ?_
    rintro rfl
    exact not_mem_keys hk (mem_map_of_mem hm)
  cases table
  unfold remove
  congr

def retain (keep : κ → Bool) (table : Table κ ν) : Table κ ν where
  entries := table.entries.filter fun entry => keep entry.1
  nodup := table.nodup.sublist (filter_sublist.map Prod.fst)

theorem find_retain (keep : κ → Bool) (key : κ) (table : Table κ ν) :
    (table.retain keep).find key = if keep key then table.find key else none :=
  lookup_filter keep table.entries key

theorem mem_keys : key ∈ table.entries.map Prod.fst ↔ table.find key ≠ none := by
  constructor
  · intro hm hn
    exact not_mem_keys hn hm
  · intro hn
    obtain ⟨_, hv⟩ := Option.ne_none_iff_exists'.mp hn
    exact mem_map.mpr ⟨_, find_eq_some.mp hv, rfl⟩

end Table

end Nteract.Lib
