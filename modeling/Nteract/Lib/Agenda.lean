import Mathlib

namespace Nteract.Lib.Agenda

open List

variable {α : Type} {first second item : α} {agenda items : List α}

-- `first` is on the agenda, and `second` does not come up before it.
def Before (agenda : List α) (first second : α) : Prop :=
  ∃ ahead rest, agenda = ahead ++ first :: rest ∧ second ∉ ahead

namespace Before

section

variable (hb : Before agenda first second)
include hb

theorem mem : first ∈ agenda := by
  obtain ⟨_, _, rfl, -⟩ := hb
  simp

theorem append (later : List α) :
    Before (agenda ++ later) first second := by
  obtain ⟨ahead, rest, rfl, hn⟩ := hb
  exact ⟨ahead, rest ++ later, by simp, hn⟩

theorem cons (hi : item ≠ second) :
    Before (item :: agenda) first second := by
  obtain ⟨ahead, rest, rfl, hn⟩ := hb
  exact ⟨item :: ahead, rest, rfl, by simp [hn, hi.symm]⟩

end

theorem of_notMem (hm : first ∈ agenda) (hn : second ∉ agenda) : Before agenda first second := by
  obtain ⟨ahead, rest, rfl⟩ := append_of_mem hm
  exact ⟨ahead, rest, rfl, fun h => hn (mem_append_left _ h)⟩

theorem of_cons (hb : Before (item :: agenda) first second) :
    item = first ∨ item ≠ second ∧ Before agenda first second := by
  obtain ⟨ahead, rest, he, hn⟩ := hb
  cases ahead with
  | nil => exact .inl (cons.inj he).1
  | cons _ ahead =>
    obtain ⟨rfl, rfl⟩ := cons.inj he
    rw [mem_cons, not_or] at hn
    exact .inr ⟨Ne.symm hn.1, ahead, rest, rfl, hn.2⟩

theorem of_concat (hb : Before (agenda ++ [item]) first second) (hi : item ≠ first) :
    Before agenda first second := by
  obtain ⟨ahead, rest, he, hn⟩ := hb
  rcases eq_nil_or_concat rest with rfl | ⟨rest, _, rfl⟩
  · exact absurd (append_inj_right' he rfl) (by simpa using hi)
  · refine ⟨ahead, rest, ?_, hn⟩
    rw [concat_eq_append, ← cons_append, ← append_assoc] at he
    exact append_inj_left' he rfl

end Before

-- Each item but the last is on the agenda, none before the one in front of it.
def InOrder (agenda items : List α) : Prop := items.IsChain (Before agenda)

namespace InOrder

theorem append (ho : InOrder agenda items) (later : List α) : InOrder (agenda ++ later) items :=
  ho.imp fun _ _ hb => hb.append later

theorem push (ho : InOrder agenda items) (hi : item ∉ items.tail) :
    InOrder (item :: agenda) items := by
  refine (IsChain.iff_mem_mem_tail.mp ho).imp fun first second hb => ?_
  exact hb.2.2.cons fun he => hi (he ▸ hb.2.1)

-- What is at the front of the agenda comes off, unless an item still waits for it.
theorem drop (ho : InOrder (item :: agenda) items) (hi : item ∉ items) : InOrder agenda items := by
  refine (IsChain.iff_mem.mp ho).imp fun first second hb => ?_
  exact (hb.2.2.of_cons.resolve_left fun he => hi (he ▸ hb.1)).2

theorem dropLast (ho : InOrder (agenda ++ [item]) items) (hi : item ∉ items) :
    InOrder agenda items := by
  refine (IsChain.iff_mem.mp ho).imp fun first second hb => ?_
  exact hb.2.2.of_concat fun he => hi (he ▸ hb.1)

theorem head (ho : InOrder (item :: agenda) items) (hn : items.Nodup) (hm : item ∈ items) :
    items.head? = some item := by
  induction items with
  | nil => cases hm
  | cons head items ih =>
    rcases mem_cons.mp hm with rfl | hm
    · rfl
    · rw [nodup_cons] at hn
      have hh := ih ho.tail hn.2 hm
      obtain ⟨_, rfl⟩ := List.head?_eq_some_iff.mp hh
      rcases (isChain_cons_cons.mp ho).1.of_cons with rfl | hb
      · exact absurd (.head _) hn.1
      · exact absurd rfl hb.1

theorem mem_or_last (ho : InOrder agenda items) (hm : item ∈ items) :
    item ∈ agenda ∨ items.getLast? = some item := by
  induction items with
  | nil => cases hm
  | cons head items ih =>
    cases items with
    | nil => exact .inr (by rw [mem_singleton.mp hm]; rfl)
    | cons =>
      obtain ⟨hb, ho⟩ := isChain_cons_cons.mp ho
      rcases mem_cons.mp hm with rfl | hm
      · exact .inl hb.mem
      · exact (ih ho hm).imp_right fun h => by rw [List.getLast?_cons_cons, h]

theorem concat (ho : InOrder agenda (items ++ [first])) (hn : second ∉ agenda)
    (hne : first ≠ second) : InOrder (agenda ++ [first]) (items ++ [first, second]) := by
  have hb : Before (agenda ++ [first]) first second :=
    .of_notMem (by simp) (by simpa [hn] using hne.symm)
  have hi : items ++ [first, second] = items ++ [first] ++ [second] := by simp
  rw [hi]
  refine isChain_append.mpr ⟨ho.append _, .singleton _, ?_⟩
  simpa using hb

end InOrder

end Nteract.Lib.Agenda
