import Mathlib

namespace Nteract.Lib

open List

inductive Place
  | Waiting
  | Serving
  | Finished
  | Returned
  | Dropped
deriving DecidableEq

def Place.isOpen : Place → Bool
  | .Waiting => true
  | .Serving => true
  | _ => false

-- The n-th accepted item has ticket n. `started`: the order of the services.
structure Ledger (α : Type) where
  entries : List (α × Place)
  started : List Nat
deriving DecidableEq

namespace Ledger

variable {α : Type}

def empty : Ledger α := ⟨[], []⟩

def accepted (ledger : Ledger α) : List α := ledger.entries.map Prod.fst

def held (entries : List (α × Place)) (place : Place) : List α :=
  (entries.filter fun entry => entry.2 = place).map Prod.fst

def inPlace (ledger : Ledger α) (place : Place) : List α := held ledger.entries place

def startedItems (ledger : Ledger α) : List (Option α) :=
  ledger.started.map fun ticket => ledger.accepted[ticket]?

def accept (item : α) (ledger : Ledger α) : Ledger α :=
  { ledger with entries := ledger.entries ++ [(item, .Waiting)] }

-- Items under way are distinct and start in order; what waits came later.
structure Sound (ledger : Ledger α) : Prop where
  distinct : (ledger.inPlace .Serving ++ ledger.inPlace .Waiting).Nodup
  inOrder : ledger.started.Pairwise (· < ·)
  known : ∀ ticket ∈ ledger.started, ticket < ledger.entries.length
  behind : ∀ ticket ∈ ledger.started, ∀ index item,
    ledger.entries[index]? = some (item, .Waiting) → ticket < index

structure Balanced (ledger : Ledger α) (reports : List (α × Place)) (waiting serving begun : List α) :
    Prop where
  sound : ledger.Sound
  waiting : ledger.inPlace .Waiting = waiting
  serving : ledger.inPlace .Serving = serving
  reported : ∀ place, place.isOpen = false → (held reports place).Perm (ledger.inPlace place)
  begun : ledger.startedItems = begun.map some

variable {entries : List (α × Place)} {other : Place} {ledger : Ledger α}
  {waiting serving begun : List α}

theorem held_cons (entry : α × Place) (entries : List (α × Place)) (place : Place) :
    held (entry :: entries) place =
      if entry.2 = place then entry.1 :: held entries place else held entries place := by
  by_cases h : entry.2 = place <;> simp [held, h]

theorem mem_held : item ∈ held entries place ↔ (item, place) ∈ entries := by
  simp [held]

theorem ne_of_isOpen (hp : place.isOpen = false) (ho : other.isOpen = true) : other ≠ place := by
  intro he
  rw [← he, ho] at hp
  cases hp

@[simp] theorem accepted_accept : (ledger.accept item).accepted = ledger.accepted ++ [item] := by
  simp [accepted, accept]

@[simp] theorem inPlace_accept_waiting :
    (ledger.accept item).inPlace .Waiting = ledger.inPlace .Waiting ++ [item] := by
  simp [inPlace, accept, held]

theorem inPlace_accept_other (hp : place ≠ .Waiting) :
    (ledger.accept item).inPlace place = ledger.inPlace place := by
  simp [inPlace, accept, held, hp.symm]

theorem sound_empty : (empty : Ledger α).Sound where
  distinct := nodup_nil
  inOrder := Pairwise.nil
  known := by simp [empty]
  behind := by simp [empty]

theorem sound_accept (hs : ledger.Sound)
    (hf : item ∉ ledger.inPlace .Serving ++ ledger.inPlace .Waiting) :
    (ledger.accept item).Sound where
  distinct := by
    rw [inPlace_accept_waiting, inPlace_accept_other (by decide), ← append_assoc]
    exact nodup_append.mpr ⟨hs.distinct, nodup_singleton item,
      fun held hm other ho he => hf (mem_singleton.mp ho ▸ he ▸ hm)⟩
  inOrder := hs.inOrder
  known := by
    intro ticket hm
    have hlt := hs.known ticket hm
    simp only [accept, length_append]
    omega
  behind := by
    intro ticket hm index later hi
    by_cases hlt : index < ledger.entries.length
    · rw [accept, List.getElem?_append_left hlt] at hi
      exact hs.behind ticket hm index later hi
    · have hk := hs.known ticket hm
      omega

theorem startedItems_accept (hs : ledger.Sound) :
    (ledger.accept item).startedItems = ledger.startedItems := by
  unfold startedItems
  rw [accepted_accept]
  apply map_congr_left
  intro ticket hm
  have hlt : ticket < ledger.accepted.length := by
    simpa [accepted] using hs.known ticket hm
  exact List.getElem?_append_left hlt

theorem held_reports (reports : List (α × Place)) (ids : List α) (place other : Place) :
    held (reports ++ ids.map fun id => (id, place)) other =
      held reports other ++ if place = other then ids else [] := by
  by_cases h : place = other
  · simp [held, h, filter_map, Function.comp_def]
  · simp [held, h]

theorem balanced_empty : Balanced (empty : Ledger α) [] [] [] [] where
  sound := sound_empty
  waiting := rfl
  serving := rfl
  reported := fun _ _ => Perm.refl _
  begun := rfl

theorem Balanced.nodup (hb : Balanced ledger reports waiting serving begun) :
    (serving ++ waiting).Nodup := by
  have hd := hb.sound.distinct
  rwa [hb.waiting, hb.serving] at hd

theorem Balanced.accept (hb : Balanced ledger reports waiting serving begun)
    (hf : item ∉ serving ++ waiting) :
    Balanced (ledger.accept item) reports (waiting ++ [item]) serving begun where
  sound := sound_accept hb.sound (by rwa [hb.serving, hb.waiting])
  waiting := by rw [inPlace_accept_waiting, hb.waiting]
  serving := by rw [inPlace_accept_other (by decide), hb.serving]
  begun := by rw [startedItems_accept hb.sound, hb.begun]
  reported := by
    intro other ho
    rw [inPlace_accept_other (ne_of_isOpen ho rfl).symm]
    exact hb.reported other ho

theorem held_map (keep : α → Bool)
    (hc : ∀ entry, held [change entry] other = (held [entry] other).filter keep)
    (entries : List (α × Place)) :
    held (entries.map change) other = (held entries other).filter keep := by
  induction entries with
  | nil => rfl
  | cons entry entries ih =>
    have ha := fun front back : List (α × Place) =>
      show held (front ++ back) other = held front other ++ held back other by simp [held]
    rw [map_cons, ← singleton_append, ha, hc, ih, ← filter_append, ← ha]
    rfl

theorem first_waiting (hw : ledger.inPlace .Waiting = item :: rest) :
    (item, Place.Waiting) ∈ ledger.entries := by
  have hm : item ∈ ledger.inPlace .Waiting := by simp [hw]
  exact mem_held.mp hm

theorem not_mem_rest (hw : ledger.inPlace .Waiting = item :: rest) (hs : ledger.Sound) :
    item ∉ rest := by
  have hd := (nodup_append.mp hs.distinct).2.1
  rw [hw] at hd
  exact (nodup_cons.mp hd).1

variable [DecidableEq α]

def closeEntry (items : List α) (place : Place) (entry : α × Place) : α × Place :=
  if entry.2.isOpen && entry.1 ∈ items then (entry.1, place) else entry

def close (items : List α) (place : Place) (ledger : Ledger α) : Ledger α :=
  { ledger with entries := ledger.entries.map (closeEntry items place) }

def startEntry (item : α) (entry : α × Place) : α × Place :=
  if entry = (item, .Waiting) then (item, .Serving) else entry

def start (item : α) (ledger : Ledger α) : Ledger α where
  entries := ledger.entries.map (startEntry item)
  started := ledger.started ++ [ledger.entries.idxOf (item, .Waiting)]

theorem closeEntry_cases (items : List α) (place : Place) (entry : α × Place) :
    (entry.2.isOpen = true ∧ entry.1 ∈ items ∧ closeEntry items place entry = (entry.1, place)) ∨
    ((entry.2.isOpen = true → entry.1 ∉ items) ∧ closeEntry items place entry = entry) := by
  by_cases h : entry.2.isOpen && decide (entry.1 ∈ items)
  · left
    simp only [Bool.and_eq_true, decide_eq_true_eq] at h
    exact ⟨h.1, h.2, by simp [closeEntry, h.1, h.2]⟩
  · right
    simp only [Bool.and_eq_true, decide_eq_true_eq, not_and] at h
    refine ⟨h, if_neg ?_⟩
    simpa only [Bool.and_eq_true, decide_eq_true_eq, not_and] using h

theorem inPlace_close_open (hp : place.isOpen = false) (ho : other.isOpen = true) :
    (ledger.close items place).inPlace other = (ledger.inPlace other).filter (· ∉ items) := by
  refine held_map _ (fun entry => ?_) ledger.entries
  rcases closeEntry_cases items place entry with ⟨-, hm, hc⟩ | ⟨hm, hc⟩
  · by_cases hat : entry.2 = other <;> simp [held, hc, (ne_of_isOpen hp ho).symm, hat, hm]
  · by_cases hat : entry.2 = other
    · simp [held, hc, hat, hm (hat ▸ ho)]
    · simp [held, hc, hat]

theorem inPlace_close_closed (ho : other.isOpen = false) (hne : place ≠ other) :
    (ledger.close items place).inPlace other = ledger.inPlace other := by
  refine (held_map (fun _ => true) (fun entry => ?_) ledger.entries).trans (filter_true _)
  rcases closeEntry_cases items place entry with ⟨hopen, -, hc⟩ | ⟨-, hc⟩
  · simp [held, hc, hne, ne_of_isOpen ho hopen]
  · simp [hc]

theorem inPlace_start_closed (ho : other.isOpen = false) :
    (ledger.start item).inPlace other = ledger.inPlace other := by
  refine (held_map (fun _ => true) (fun entry => ?_) ledger.entries).trans (filter_true _)
  by_cases h : entry = (item, .Waiting)
  · simp [held, startEntry, h, show Place.Serving ≠ other from ne_of_isOpen ho rfl,
      show Place.Waiting ≠ other from ne_of_isOpen ho rfl]
  · simp [startEntry, h]

theorem held_close_same (hp : place.isOpen = false) :
    (held (entries.map (closeEntry items place)) place).Perm
      (held entries place ++ ((held entries .Serving).filter (· ∈ items) ++
        (held entries .Waiting).filter (· ∈ items))) := by
  induction entries with
  | nil => exact Perm.refl _
  | cons entry _ ih =>
    obtain ⟨first, spot⟩ := entry
    rw [map_cons, held_cons, held_cons, held_cons, held_cons]
    rcases closeEntry_cases items place (first, spot) with ⟨ho, hm, hc⟩ | ⟨hm, hc⟩
    · rw [hc, if_pos rfl, if_neg (ne_of_isOpen hp ho)]
      refine (ih.cons first).trans ?_
      -- the entry leaves the front of its open place
      cases spot with
      | Serving =>
        simp only [if_true, filter_cons, hm]
        exact perm_middle.symm
      | Waiting =>
        simp only [if_true, filter_cons, hm, ← append_assoc]
        exact perm_middle.symm
      | _ => cases ho
    · rw [hc]
      by_cases hat : spot = place
      · have hs : spot ≠ .Serving := fun he => by rw [← hat, he] at hp; cases hp
        have hw : spot ≠ .Waiting := fun he => by rw [← hat, he] at hp; cases hp
        rw [if_pos hat, if_pos hat, if_neg hs, if_neg hw]
        exact ih.cons first
      · rw [if_neg hat, if_neg hat]
        by_cases ho : spot.isOpen
        · have hout : first ∉ items := hm ho
          refine ih.trans (Perm.of_eq ?_)
          split <;> split <;> simp [hout]
        · have hs : spot ≠ .Serving := fun he => ho (by rw [he]; rfl)
          have hw : spot ≠ .Waiting := fun he => ho (by rw [he]; rfl)
          rw [if_neg hs, if_neg hw]
          exact ih

theorem held_start_serving : (held (entries.map (startEntry item)) .Serving).Perm
      (held entries .Serving ++ (held entries .Waiting).filter (· = item)) := by
  induction entries with
  | nil => exact Perm.refl _
  | cons entry _ ih =>
    rw [map_cons, held_cons, held_cons, held_cons]
    by_cases h : entry = (item, .Waiting)
    · simp only [startEntry, h, if_true, filter_cons]
      exact (ih.cons item).trans perm_middle.symm
    · simp only [startEntry, h, if_false]
      by_cases hs : entry.2 = .Serving
      · have hw : entry.2 ≠ .Waiting := by simp [hs]
        rw [if_pos hs, if_pos hs, if_neg hw]
        exact ih.cons entry.1
      · rw [if_neg hs, if_neg hs]
        refine ih.trans (Perm.of_eq ?_)
        split
        · rename_i hw
          have hne : entry.1 ≠ item := fun he => h (Prod.ext he hw)
          simp [hne]
        · rfl

theorem idxOf_first_le (hw : held entries .Waiting = item :: rest)
    (hi : entries[index]? = some (later, .Waiting)) : entries.idxOf (item, .Waiting) ≤ index := by
  induction entries generalizing index with
  | nil => simp at hi
  | cons entry _ ih =>
    rw [held_cons] at hw
    by_cases hat : entry.2 = .Waiting
    · rw [if_pos hat] at hw
      have he : entry = (item, .Waiting) := Prod.ext (cons.inj hw).1 hat
      simp [he]
    · rw [if_neg hat] at hw
      cases index with
      | zero =>
        rw [List.getElem?_cons_zero, Option.some.injEq] at hi
        exact absurd (by rw [hi]) hat
      | succ =>
        have hne : entry ≠ (item, .Waiting) := fun he => hat (by rw [he])
        rw [idxOf_cons_ne _ hne]
        exact Nat.succ_le_succ (ih hw (by simpa using hi))

@[simp] theorem accepted_close : (ledger.close items place).accepted = ledger.accepted := by
  simp only [accepted, close, map_map]
  apply map_congr_left
  intro entry _
  rcases closeEntry_cases items place entry with ⟨-, -, hc⟩ | ⟨-, hc⟩ <;> simp [hc]

@[simp] theorem accepted_start : (ledger.start item).accepted = ledger.accepted := by
  simp only [accepted, start, map_map]
  apply map_congr_left
  intro entry _
  by_cases h : entry = (item, .Waiting) <;> simp [startEntry, h]

theorem sound_close (hs : ledger.Sound) (hp : place.isOpen = false) :
    (ledger.close items place).Sound where
  distinct := by
    rw [inPlace_close_open hp rfl, inPlace_close_open hp rfl, ← filter_append]
    exact hs.distinct.filter _
  inOrder := hs.inOrder
  known := by
    intro ticket hm
    simpa [close] using hs.known ticket hm
  behind := by
    intro ticket hm index later hi
    simp only [close, List.getElem?_map, Option.map_eq_some_iff] at hi
    obtain ⟨entry, he, hc⟩ := hi
    rcases closeEntry_cases items place entry with ⟨-, -, hclosed⟩ | ⟨-, hsame⟩
    · rw [hclosed] at hc
      exact absurd (congrArg Prod.snd hc) (ne_of_isOpen hp rfl).symm
    · rw [hsame] at hc
      exact hs.behind ticket hm index later (hc ▸ he)

@[simp] theorem startedItems_close :
    (ledger.close items place).startedItems = ledger.startedItems := by
  simp only [startedItems, accepted_close]
  rfl

section Start

variable {item : α} {rest : List α} (hw : ledger.inPlace .Waiting = item :: rest)

include hw

theorem startedItems_start :
    (ledger.start item).startedItems = ledger.startedItems ++ [some item] := by
  have hf := idxOf_lt_length_of_mem (first_waiting hw)
  simp only [startedItems, accepted_start]
  simp [start, accepted, List.getElem?_eq_getElem hf]

variable (hs : ledger.Sound)

include hs

theorem inPlace_start_waiting : (ledger.start item).inPlace .Waiting = rest := by
  have hstart : (ledger.start item).inPlace .Waiting =
      (ledger.inPlace .Waiting).filter (· ≠ item) := by
    refine held_map _ (fun entry => ?_) ledger.entries
    by_cases h : entry = (item, .Waiting)
    · simp [held, startEntry, h]
    · by_cases hat : entry.2 = .Waiting
      · simp [held, startEntry, h, hat, show entry.1 ≠ item from fun he => h (Prod.ext he hat)]
      · simp [held, startEntry, h, hat]
  rw [hstart, hw, filter_cons_of_neg (by simp), filter_eq_self]
  intro other hm
  exact decide_eq_true fun he => not_mem_rest hw hs (he ▸ hm)

theorem inPlace_start_serving (he : ledger.inPlace .Serving = []) :
    (ledger.start item).inPlace .Serving = [item] := by
  have hdrop : ∀ other ∈ rest, ¬ decide (other = item) = true := by
    intro other hm he
    exact not_mem_rest hw hs (of_decide_eq_true he ▸ hm)
  have hstart : ((ledger.start item).inPlace .Serving).Perm
      (ledger.inPlace .Serving ++ (ledger.inPlace .Waiting).filter (· = item)) :=
    held_start_serving
  rw [he, hw, filter_cons_of_pos (by simp), filter_eq_nil_iff.mpr hdrop] at hstart
  exact perm_singleton.mp hstart

theorem sound_start (he : ledger.inPlace .Serving = []) : (ledger.start item).Sound := by
  have hf := idxOf_lt_length_of_mem (first_waiting hw)
  have hg : ledger.entries[ledger.entries.idxOf (item, Place.Waiting)]? =
      some (item, .Waiting) := by
    rw [List.getElem?_eq_getElem hf, getElem_idxOf]
  constructor
  · rw [inPlace_start_waiting hw hs, inPlace_start_serving hw hs he]
    have hd := hs.distinct
    rwa [he, hw] at hd
  · refine pairwise_append.mpr ⟨hs.inOrder, pairwise_singleton _ _, ?_⟩
    intro earlier hm ticket ht
    rw [mem_singleton.mp ht]
    exact hs.behind earlier hm _ item hg
  · intro ticket hm
    simp only [start, length_map]
    rcases mem_append.mp hm with hm | hm
    · exact hs.known ticket hm
    · rw [mem_singleton.mp hm]
      exact hf
  · intro ticket hm index later hi
    simp only [start, List.getElem?_map, Option.map_eq_some_iff] at hi
    obtain ⟨entry, hentry, hc⟩ := hi
    by_cases hitem : entry = (item, .Waiting)
    · simp [startEntry, hitem] at hc
    · have hsame : entry = (later, .Waiting) := by simpa [startEntry, hitem] using hc
      rw [hsame] at hentry
      rcases mem_append.mp hm with hm | hm
      · exact hs.behind ticket hm index later hentry
      · -- the started ticket is the least waiting one, and not the one at this index
        rw [mem_singleton.mp hm]
        have hle := idxOf_first_le hw hentry
        rcases Nat.lt_or_eq_of_le hle with hlt | heq
        · exact hlt
        · rw [heq, hentry, Option.some.injEq] at hg
          exact absurd (hsame.trans hg) hitem

end Start

theorem Balanced.close (hb : Balanced ledger reports waiting serving begun)
    (hp : place.isOpen = false) (hsub : ids.Sublist (serving ++ waiting)) :
    Balanced (ledger.close ids place) (reports ++ ids.map fun id => (id, place))
      (waiting.filter (· ∉ ids)) (serving.filter (· ∉ ids)) begun where
  sound := sound_close hb.sound hp
  waiting := by rw [inPlace_close_open hp rfl, hb.waiting]
  serving := by rw [inPlace_close_open hp rfl, hb.serving]
  begun := by rw [startedItems_close, hb.begun]
  reported := by
    intro other ho
    rw [held_reports]
    by_cases hs : place = other
    · rw [if_pos hs, ← hs]
      -- the reported ids are distinct and all under way, so they are what was closed
      have hi : ids.Perm ((serving ++ waiting).filter (· ∈ ids)) := by
        refine (perm_ext_iff_of_nodup (hb.nodup.sublist hsub) (hb.nodup.filter _)).mpr fun id => ?_
        rw [mem_filter, decide_eq_true_eq]
        exact ⟨fun h => ⟨hsub.subset h, h⟩, And.right⟩
      refine Perm.trans ?_ (held_close_same hp).symm
      change List.Perm _ (ledger.inPlace place ++ ((ledger.inPlace .Serving).filter (· ∈ ids) ++
        (ledger.inPlace .Waiting).filter (· ∈ ids)))
      rw [hb.serving, hb.waiting, ← filter_append]
      exact (hb.reported place hp).append hi
    · rw [if_neg hs, append_nil, inPlace_close_closed ho hs]
      exact hb.reported other ho

theorem Balanced.start (hb : Balanced ledger reports (item :: waiting) [] begun) :
    Balanced (ledger.start item) reports waiting [item] (begun ++ [item]) where
  sound := sound_start hb.waiting hb.sound hb.serving
  waiting := inPlace_start_waiting hb.waiting hb.sound
  serving := inPlace_start_serving hb.waiting hb.sound hb.serving
  begun := by simp [startedItems_start hb.waiting, hb.begun]
  reported := by
    intro other ho
    rw [inPlace_start_closed ho]
    exact hb.reported other ho

end Ledger

end Nteract.Lib
