import Mathlib

namespace Nteract.Lib.Causal

open Finset

variable {α : Type*} [DecidableEq α]

section Settled

variable (deps : α → List α)

-- One round over the received items: keep those whose dependencies are all in `known`.
def ready (received known : Finset α) : Finset α :=
  received.filter fun item => ∀ dep ∈ deps item, dep ∈ known

-- The items that round `count` has admitted, starting from none.
def admitted (received : Finset α) : Nat → Finset α
  | 0 => ∅
  | count + 1 => ready deps received (admitted received count)

-- Every round but the last admits a new item, so one round for each item is enough.
def settled (received : Finset α) : Finset α :=
  admitted deps received received.card

def frontier (received : Finset α) : Finset α :=
  (settled deps received).filter fun item => ∀ other ∈ settled deps received, item ∉ deps other

end Settled

variable {deps : α → List α} (received : Finset α)

theorem ready_mono (hk : known ⊆ known') :
    ready deps received known ⊆ ready deps received known' := by
  intro item hi
  simp only [ready, mem_filter] at hi ⊢
  exact ⟨hi.1, fun dep hd => hk (hi.2 dep hd)⟩

theorem admitted_subset (count : Nat) : admitted deps received count ⊆ received := by
  cases count with
  | zero => exact empty_subset _
  | succ => exact filter_subset _ _

theorem admitted_step (count : Nat) :
    admitted deps received count ⊆ admitted deps received (count + 1) := by
  induction count with
  | zero => exact empty_subset _
  | succ _ ih => exact ready_mono received ih

-- A round either admits a new item or is the last one that changes anything.
theorem admitted_grows (deps : α → List α) (received : Finset α) (count : Nat) :
    count ≤ (admitted deps received count).card ∨
      admitted deps received (count + 1) = admitted deps received count := by
  induction count with
  | zero => exact .inl (Nat.zero_le _)
  | succ count ih =>
    rcases ih with _ | hf
    · by_cases he : admitted deps received (count + 1) = admitted deps received count
      · right
        exact congrArg (ready deps received) he
      · left
        have hss : admitted deps received count ⊂ admitted deps received (count + 1) :=
          (admitted_step received count).ssubset_of_ne (Ne.symm he)
        have := card_lt_card hss
        omega
    · right
      exact congrArg (ready deps received) hf

theorem settled_fixed : ready deps received (settled deps received) = settled deps received := by
  rcases admitted_grows deps received received.card with hc | hf
  · have ha : settled deps received = received :=
      eq_of_subset_of_card_le (admitted_subset received _) hc
    apply Subset.antisymm
    · exact (filter_subset _ _).trans_eq ha.symm
    · exact admitted_step received received.card
  · exact hf

theorem settled_subset : settled deps received ⊆ received :=
  admitted_subset received _

variable {received}

theorem mem_settled : item ∈ settled deps received ↔
      item ∈ received ∧ ∀ dep ∈ deps item, dep ∈ settled deps received := by
  conv_lhs => rw [← settled_fixed received]
  simp [ready]

-- A property that passes from dependencies to the item holds of all settled items.
theorem settled_induction {motive : α → Prop}
    (hs : ∀ item ∈ received, (∀ dep ∈ deps item, motive dep) → motive item) :
    ∀ item ∈ settled deps received, motive item := by
  have hr : ∀ count, ∀ item ∈ admitted deps received count, motive item := by
    intro count
    induction count with
    | zero => simp [admitted]
    | succ _ ih =>
      intro item hi
      simp only [admitted, ready, mem_filter] at hi
      exact hs item hi.1 (fun dep hd => ih dep (hi.2 dep hd))
  exact hr _

-- A set that takes in whatever depends on it alone contains the settled items.
theorem settled_least (hc : ∀ item ∈ received, (∀ dep ∈ deps item, dep ∈ target) → item ∈ target) :
    settled deps received ⊆ target := by
  intro item hi
  exact settled_induction (motive := (· ∈ target)) hc item hi

theorem settled_mono (hs : received ⊆ larger) : settled deps received ⊆ settled deps larger :=
  settled_least fun _ hi hd => mem_settled.mpr ⟨hs hi, hd⟩

theorem settled_idem (received : Finset α) :
    settled deps (settled deps received) = settled deps received := by
  apply Subset.antisymm (settled_subset _)
  exact settled_least fun item hi hd =>
    mem_settled.mpr ⟨mem_settled.mpr ⟨hi, fun dep hdep => settled_subset _ (hd dep hdep)⟩, hd⟩

-- `Below item ancestor`: following dependencies from `item` reaches `ancestor`.
def Below (deps : α → List α) : α → α → Prop :=
  Relation.ReflTransGen fun item dep => dep ∈ deps item

omit [DecidableEq α] in
theorem Below.refl (item : α) : Below deps item item := Relation.ReflTransGen.refl

theorem settled_below (hb : Below deps item ancestor) (hi : item ∈ settled deps received) :
    ancestor ∈ settled deps received := by
  induction hb with
  | refl => exact hi
  | tail _ hd ih => exact (mem_settled.mp ih).2 _ hd

-- The round that admits an item. Dependencies are admitted strictly earlier.
def rank (deps : α → List α) (received : Finset α) (item : α) : Nat :=
  ((Finset.range (received.card + 1)).filter fun count =>
    item ∉ admitted deps received count).card

theorem rank_lt (hi : item ∈ settled deps received) (hd : dep ∈ deps item) :
    rank deps received dep < rank deps received item := by
  have hs : ∀ count, item ∈ admitted deps received (count + 1) →
      dep ∈ admitted deps received count := by
    intro count hc
    exact (mem_filter.mp hc).2 dep hd
  have hsub : ((Finset.range (received.card + 1)).filter fun count =>
      dep ∉ admitted deps received count) ⊆
      ((Finset.range (received.card + 1)).filter fun count =>
        item ∉ admitted deps received count) := by
    intro count hc
    simp only [mem_filter] at hc ⊢
    exact ⟨hc.1, fun hm => hc.2 (hs count (admitted_step received count hm))⟩
  apply card_lt_card
  refine hsub.ssubset_of_ne fun he => ?_
  -- the last round that misses `item` already has `dep`
  have hex : ∃ count, item ∉ admitted deps received count ∧
      item ∈ admitted deps received (count + 1) ∧ count < received.card := by
    by_contra hno
    push Not at hno
    have ha : ∀ count ≤ received.card, item ∉ admitted deps received count := by
      intro count
      induction count with
      | zero => simp [admitted]
      | succ count ih =>
        intro hle hm
        exact absurd (hno count (ih (by omega)) hm) (by omega)
    exact ha _ (Nat.le_refl _) hi
  obtain ⟨count, hmiss, hn, _⟩ := hex
  have hm : count ∈ (Finset.range (received.card + 1)).filter fun count =>
      item ∉ admitted deps received count := by
    simp only [mem_filter, mem_range]
    exact ⟨by omega, hmiss⟩
  rw [← he] at hm
  exact (mem_filter.mp hm).2 (hs count hn)

-- Among the settled items above an item, one of highest rank has no dependent.
theorem exists_frontier (hi : item ∈ settled deps received) :
    ∃ head ∈ frontier deps received, Below deps head item := by
  classical
  let above := (settled deps received).filter fun other => Below deps other item
  have hne : above.Nonempty :=
    ⟨item, mem_filter.mpr ⟨hi, Below.refl item⟩⟩
  obtain ⟨head, hh, hm⟩ := above.exists_max_image (rank deps received) hne
  obtain ⟨hs, hb⟩ := mem_filter.mp hh
  refine ⟨head, mem_filter.mpr ⟨hs, fun other ho hd => ?_⟩, hb⟩
  have hup : other ∈ above :=
    mem_filter.mpr ⟨ho, Relation.ReflTransGen.head hd hb⟩
  have hlt := rank_lt ho hd
  have hle := hm other hup
  omega

theorem settled_subset_of_frontier (hf : frontier deps received ⊆ settled deps larger) :
    settled deps received ⊆ settled deps larger := by
  intro item hi
  obtain ⟨_, hh, hb⟩ := exists_frontier hi
  exact settled_below hb (hf hh)

theorem frontier_subset (received : Finset α) : frontier deps received ⊆ settled deps received :=
  filter_subset _ _

theorem settled_eq_of_frontier_eq (he : frontier deps received = frontier deps larger) :
    settled deps received = settled deps larger :=
  Subset.antisymm (settled_subset_of_frontier (he ▸ frontier_subset larger))
    (settled_subset_of_frontier (he ▸ frontier_subset received))

end Nteract.Lib.Causal
