import Nteract.Lib.JsonText

namespace Nteract.Lib.Decimal

open JsonText List

def digitChar (digit : Nat) : Char := Char.ofNat (48 + digit)

def digits (value : Nat) : List Nat := if value = 0 then [0] else (Nat.digits 10 value).reverse

def natText (value : Nat) : List Char := (digits value).map digitChar

theorem digit_digitChar (hv : value < 10) : digit (digitChar value) = some value := by
  interval_cases value <;> rfl

theorem digits_lt (hm : item ∈ digits value) : item < 10 := by
  unfold digits at hm
  split at hm
  · rw [mem_singleton.mp hm]
    omega
  · exact Nat.digits_lt_base (by omega) (mem_reverse.mp hm)

theorem parseDigits_map (hi : ∀ item ∈ items, item < 10) :
    parseDigits (items.map digitChar) = (items, []) := by
  induction items with
  | nil => rfl
  | cons item _ ih =>
    rw [map_cons, parseDigits, digit_digitChar (hi item (.head _))]
    simp [ih fun other hm => hi other (.tail _ hm)]

theorem natOfDigits_reverse (items : List Nat) :
    natOfDigits items.reverse = Nat.ofDigits 10 items := by
  unfold natOfDigits
  rw [foldl_reverse, Nat.ofDigits_eq_foldr]
  congr 1
  funext item value
  simp only [Nat.cast_id]
  omega

theorem natOfDigits_digits (value : Nat) : natOfDigits (digits value) = value := by
  unfold digits
  split
  · rename_i hz
    rw [hz]
    rfl
  · rw [natOfDigits_reverse, Nat.ofDigits_digits]

theorem digits_ne_nil (value : Nat) : digits value ≠ [] := by
  unfold digits
  split
  · exact cons_ne_nil _ _
  · rename_i hne
    simpa using Nat.digits_ne_nil_iff_ne_zero.mpr hne

theorem digits_head (hd : digits value = first :: rest) (hne : value ≠ 0) : first ≠ 0 := by
  unfold digits at hd
  rw [if_neg hne] at hd
  have hn : Nat.digits 10 value ≠ [] := Nat.digits_ne_nil_iff_ne_zero.mpr hne
  have hl : (Nat.digits 10 value).getLast hn = first := by
    have hh : (Nat.digits 10 value).reverse.head (by simpa using hn) = first := by
      simp [hd]
    rwa [head_reverse] at hh
  rw [← hl]
  exact Nat.getLast_digit_ne_zero 10 hne

theorem parseInteger_natText (value : Nat) :
    parseInteger (natText value) = some (digits value, []) := by
  by_cases hz : value = 0
  · subst hz
    rfl
  · obtain ⟨first, rest, hd⟩ := exists_cons_of_ne_nil (digits_ne_nil value)
    have hf := digits_head hd hz
    have hlt : first < 10 := digits_lt (hd ▸ mem_cons_self ..)
    have hc : digitChar first ≠ '0' := by
      interval_cases first <;> first | exact absurd rfl hf | decide
    have hdigits : parseDigits (natText value) = (digits value, []) :=
      parseDigits_map fun _ => digits_lt
    have ht : natText value = digitChar first :: rest.map digitChar := by
      rw [natText, hd, map_cons]
    unfold parseInteger
    split
    · rename_i tail heq
      rw [ht] at heq
      exact absurd (cons.inj heq).1 hc
    · unfold parseDigits1
      rw [hdigits, hd]

end Nteract.Lib.Decimal
