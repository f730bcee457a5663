import Mathlib

namespace Nteract.Lib

abbrev Text := List Char

namespace Text

-- The Unicode `White_Space` property.
def isWhitespace (c : Char) : Bool :=
  (9 ≤ c.toNat && c.toNat ≤ 13) || c.toNat = 0x20 || c.toNat = 0x85 || c.toNat = 0xA0 ||
    c.toNat = 0x1680 || (0x2000 ≤ c.toNat && c.toNat ≤ 0x200A) || c.toNat = 0x2028 ||
    c.toNat = 0x2029 || c.toNat = 0x202F || c.toNat = 0x205F || c.toNat = 0x3000

def trimStart (text : Text) : Text := text.dropWhile isWhitespace

def trimEnd (text : Text) : Text := text.rdropWhile isWhitespace

def trim (text : Text) : Text := trimEnd (trimStart text)

def splitOnce (separator : Text) : Text → Option (Text × Text)
  | [] => if separator = [] then some ([], []) else none
  | c :: rest =>
    if separator.isPrefixOf (c :: rest) then
      some ([], (c :: rest).drop separator.length)
    else
      (splitOnce separator rest).map fun parts => (c :: parts.1, parts.2)

def rsplitOnce (c : Char) (text : Text) : Option (Text × Text) :=
  if c ∈ text then
    some ((text.rdropWhile (· ≠ c)).dropLast, text.rtakeWhile (· ≠ c))
  else
    none

def stripSuffix (c : Char) (text : Text) : Option Text :=
  if text.getLast? = some c then some text.dropLast else none

theorem trimStart_split (text : Text) :
    ∃ blank, text = blank ++ trimStart text ∧ ∀ c ∈ blank, isWhitespace c := by
  refine ⟨text.takeWhile isWhitespace, List.takeWhile_append_dropWhile.symm, ?_⟩
  intro c hc
  exact List.mem_takeWhile_imp hc

theorem trimEnd_split (text : Text) :
    ∃ blank, text = trimEnd text ++ blank ∧ ∀ c ∈ blank, isWhitespace c := by
  refine ⟨text.rtakeWhile isWhitespace, (List.rdropWhile_append_rtakeWhile ..).symm, ?_⟩
  intro c hc
  exact List.mem_rtakeWhile_imp hc

theorem splitOnce_eq_some (hs : splitOnce separator text = some (before, after)) :
    text = before ++ separator ++ after ∧
      ∀ left right, text = left ++ separator ++ right → before.length ≤ left.length := by
  induction text generalizing before after with
  | nil =>
    unfold splitOnce at hs
    split at hs
    · rename_i hempty
      cases hs
      simp [hempty]
    · cases hs
  | cons _ _ ih =>
    unfold splitOnce at hs
    split at hs
    · rename_i hh
      cases hs
      obtain ⟨_, htail⟩ := List.isPrefixOf_iff_prefix.mp hh
      rw [← htail]
      simp
    · rename_i hh
      obtain ⟨_, hp, he⟩ := Option.map_eq_some_iff.mp hs
      cases he
      obtain ⟨hr, hf⟩ := ih hp
      refine ⟨by rw [hr]; simp, ?_⟩
      intro left right ht
      cases left with
      | nil =>
        exact absurd (List.isPrefixOf_iff_prefix.mpr ⟨right, ht.symm⟩) hh
      | cons _ left =>
        injection ht with _ ht
        exact Nat.succ_le_succ (hf left right ht)

theorem splitOnce_eq_none (hs : splitOnce separator text = none) (left right : Text) :
    text ≠ left ++ separator ++ right := by
  induction text generalizing left with
  | nil =>
    intro ht
    unfold splitOnce at hs
    split at hs
    · cases hs
    · rename_i he
      have hn := List.append_eq_nil_iff.mp ht.symm
      exact he (List.append_eq_nil_iff.mp hn.1).2
  | cons _ _ ih =>
    intro ht
    unfold splitOnce at hs
    split at hs
    · cases hs
    · rename_i hh
      rw [Option.map_eq_none_iff] at hs
      cases left with
      | nil =>
        exact hh (List.isPrefixOf_iff_prefix.mpr ⟨right, ht.symm⟩)
      | cons _ left =>
        injection ht with _ ht
        exact ih hs left ht

end Text

end Nteract.Lib
