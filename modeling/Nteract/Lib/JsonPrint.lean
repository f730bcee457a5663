import Nteract.Lib.JsonValue

namespace Nteract.Lib.JsonPrint

open List

-- Compact JSON text of values without numbers, which reads in one way only.

def hexChar (digit : Nat) : Char :=
  if digit < 10 then Char.ofNat (48 + digit) else Char.ofNat (87 + digit)

def escapeChar (c : Char) : List Char :=
  if c = '\x22' then ['\\', '\x22']
  else if c = '\\' then ['\\', '\\']
  else if c.toNat = 8 then ['\\', 'b']
  else if c.toNat = 9 then ['\\', 't']
  else if c.toNat = 10 then ['\\', 'n']
  else if c.toNat = 12 then ['\\', 'f']
  else if c.toNat = 13 then ['\\', 'r']
  else if c.toNat < 32 then ['\\', 'u', '0', '0', hexChar (c.toNat / 16), hexChar (c.toNat % 16)]
  else [c]

def quote (text : String) : List Char := '\x22' :: text.toList.flatMap escapeChar ++ ['\x22']

mutual

def print : JsonValue Empty → List Char
  | .Null => ['n', 'u', 'l', 'l']
  | .Boolean value => if value then ['t', 'r', 'u', 'e'] else ['f', 'a', 'l', 's', 'e']
  | .Str text => quote text
  | .Array items => '[' :: printArray items
  | .Object fields => '\x7b' :: printObject fields

def printArray : List (JsonValue Empty) → List Char
  | [] => [']']
  | item :: items => print item ++ printItems items

-- The items after the first, with the closing bracket.
def printItems : List (JsonValue Empty) → List Char
  | [] => [']']
  | item :: items => ',' :: (print item ++ printItems items)

def printObject : List (String × JsonValue Empty) → List Char
  | [] => ['\x7d']
  | (key, value) :: fields => quote key ++ ':' :: (print value ++ printFields fields)

def printFields : List (String × JsonValue Empty) → List Char
  | [] => ['\x7d']
  | (key, value) :: fields => ',' :: (quote key ++ ':' :: (print value ++ printFields fields))

end

def readChar : List Char → Option (Char × List Char)
  | '\\' :: '\x22' :: rest => some ('\x22', rest)
  | '\\' :: '\\' :: rest => some ('\\', rest)
  | '\\' :: 'b' :: rest => some (Char.ofNat 8, rest)
  | '\\' :: 't' :: rest => some (Char.ofNat 9, rest)
  | '\\' :: 'n' :: rest => some (Char.ofNat 10, rest)
  | '\\' :: 'f' :: rest => some (Char.ofNat 12, rest)
  | '\\' :: 'r' :: rest => some (Char.ofNat 13, rest)
  | '\\' :: 'u' :: '0' :: '0' :: high :: low :: rest =>
    ((List.range 32).find? fun code => hexChar (code / 16) = high ∧ hexChar (code % 16) = low).map
      fun code => (Char.ofNat code, rest)
  | c :: rest => some (c, rest)
  | [] => none

theorem find_hexChar : ∀ code < 32, (List.range 32).find? (fun other =>
    hexChar (other / 16) = hexChar (code / 16) ∧ hexChar (other % 16) = hexChar (code % 16)) =
      some code := by
  decide +kernel

theorem readChar_escapeChar (c : Char) (rest : List Char) :
    readChar (escapeChar c ++ rest) = some (c, rest) := by
  have hcode : ∀ code, c.toNat = code → some (Char.ofNat code, rest) = some (c, rest) := by
    rintro code rfl
    rw [Char.ofNat_toNat]
  unfold escapeChar
  split
  · rename_i h
    rw [h]
    rfl
  split
  · rename_i h
    rw [h]
    rfl
  split
  · rename_i h
    exact hcode 8 h
  split
  · rename_i h
    exact hcode 9 h
  split
  · rename_i h
    exact hcode 10 h
  split
  · rename_i h
    exact hcode 12 h
  split
  · rename_i h
    exact hcode 13 h
  split
  · rename_i h
    have hfound := find_hexChar c.toNat h
    have hread : (((List.range 32).find? fun code => hexChar (code / 16) = hexChar (c.toNat / 16) ∧
        hexChar (code % 16) = hexChar (c.toNat % 16)).map fun code => (Char.ofNat code, rest)) =
          some (c, rest) := by
      rw [hfound, Option.map_some, hcode c.toNat rfl]
    exact hread
  · rename_i hslash _ _ _ _ _ _
    cases rest with
    | nil => simp [readChar]
    | cons => simp [readChar, hslash]

theorem escapeChar_ne_quote (c : Char) :
    ∃ first tail, escapeChar c = first :: tail ∧ first ≠ '\x22' := by
  unfold escapeChar
  repeat' split
  all_goals exact ⟨_, _, rfl, by first | decide | assumption⟩

theorem escaped_cancel {first second : List Char}
    (heq : first.flatMap escapeChar ++ '\x22' :: rest = second.flatMap escapeChar ++ '\x22' ::
      other) : first = second ∧ rest = other := by
  induction first generalizing second with
  | nil =>
    cases second with
    | nil => exact ⟨rfl, tail_eq_of_cons_eq heq⟩
    | cons d =>
      obtain ⟨_, _, he, hne⟩ := escapeChar_ne_quote d
      rw [flatMap_cons, he] at heq
      injection heq with hh
      exact absurd hh.symm hne
  | cons c _ ih =>
    cases second with
    | nil =>
      obtain ⟨_, _, he, hne⟩ := escapeChar_ne_quote c
      rw [flatMap_cons, he] at heq
      injection heq with hh
      exact absurd hh hne
    | cons =>
      rw [flatMap_cons, flatMap_cons, append_assoc, append_assoc] at heq
      have hr := congrArg readChar heq
      rw [readChar_escapeChar, readChar_escapeChar] at hr
      obtain ⟨rfl, ht⟩ := Prod.mk.inj (Option.some.inj hr)
      obtain ⟨rfl, hrest⟩ := ih ht
      exact ⟨rfl, hrest⟩

theorem quote_cancel (heq : quote first ++ rest = quote second ++ other) :
    first = second ∧ rest = other := by
  simp only [quote, append_assoc] at heq
  obtain ⟨ht, hr⟩ := escaped_cancel (tail_eq_of_cons_eq heq)
  exact ⟨String.toList_inj.mp ht, hr⟩

-- A value never starts like the end of the list it stands in.
theorem print_head (value : JsonValue Empty) :
    ∃ first tail, print value = first :: tail ∧ first ≠ ']' := by
  cases value with
  | Boolean value => cases value <;> exact ⟨_, _, rfl, by decide⟩
  | Number number => exact number.elim
  | _ => exact ⟨_, _, rfl, by decide⟩

mutual

theorem print_cancel : ∀ (first second : JsonValue Empty) {rest other : List Char},
    print first ++ rest = print second ++ other → first = second ∧ rest = other
  | .Number number, _, _, _, _ => number.elim
  | .Null, second, rest, other, heq => by
    cases second with
    | Null => simpa [print] using heq
    | Boolean value => cases value <;> simp [print] at heq
    | Number number => exact number.elim
    | Str => simp [print, quote] at heq
    | _ => simp [print] at heq
  | .Boolean value, second, rest, tail, heq => by
    cases second with
    | Boolean other => cases value <;> cases other <;> simp_all [print]
    | Number number => exact number.elim
    | Str => cases value <;> simp [print, quote] at heq
    | _ => cases value <;> simp [print] at heq
  | .Str text, second, rest, other, heq => by
    cases second with
    | Boolean value => cases value <;> simp [print, quote] at heq
    | Number number => exact number.elim
    | Str =>
      obtain ⟨rfl, hr⟩ := quote_cancel heq
      exact ⟨rfl, hr⟩
    | _ => simp [print, quote] at heq
  | .Array items, second, rest, other, heq => by
    cases second with
    | Boolean value => cases value <;> simp [print] at heq
    | Number number => exact number.elim
    | Str => simp [print, quote] at heq
    | Array second =>
      have ht : printArray items ++ rest = printArray second ++ other :=
        tail_eq_of_cons_eq heq
      obtain ⟨rfl, hr⟩ := printArray_cancel items second ht
      exact ⟨rfl, hr⟩
    | _ => simp [print] at heq
  | .Object fields, second, rest, other, heq => by
    cases second with
    | Boolean value => cases value <;> simp [print] at heq
    | Number number => exact number.elim
    | Str => simp [print, quote] at heq
    | Object second =>
      have ht : printObject fields ++ rest = printObject second ++ other :=
        tail_eq_of_cons_eq heq
      obtain ⟨rfl, hr⟩ := printObject_cancel fields second ht
      exact ⟨rfl, hr⟩
    | _ => simp [print] at heq

theorem printArray_cancel : ∀ (first second : List (JsonValue Empty)) {rest other : List Char},
    printArray first ++ rest = printArray second ++ other → first = second ∧ rest = other
  | [], second, rest, other, heq => by
    cases second with
    | nil => exact ⟨rfl, tail_eq_of_cons_eq heq⟩
    | cons item =>
      obtain ⟨head, tail, hp, hne⟩ := print_head item
      rw [printArray, printArray, hp] at heq
      injection heq with hh
      exact absurd hh.symm hne
  | item :: items, second, rest, other, heq => by
    cases second with
    | nil =>
      obtain ⟨head, tail, hp, hne⟩ := print_head item
      rw [printArray, printArray, hp] at heq
      injection heq with hh
      exact absurd hh hne
    | cons item' items' =>
      rw [printArray, printArray, append_assoc, append_assoc] at heq
      obtain ⟨rfl, ht⟩ := print_cancel item item' heq
      obtain ⟨rfl, hr⟩ := printItems_cancel items items' ht
      exact ⟨rfl, hr⟩

theorem printItems_cancel : ∀ (first second : List (JsonValue Empty)) {rest other : List Char},
    printItems first ++ rest = printItems second ++ other → first = second ∧ rest = other
  | [], second, rest, other, heq => by
    cases second with
    | nil => exact ⟨rfl, tail_eq_of_cons_eq heq⟩
    | cons => simp [printItems] at heq
  | item :: items, second, rest, other, heq => by
    cases second with
    | nil => simp [printItems] at heq
    | cons item' items' =>
      simp only [printItems, cons_append, append_assoc] at heq
      obtain ⟨rfl, ht⟩ := print_cancel item item' (tail_eq_of_cons_eq heq)
      obtain ⟨rfl, hr⟩ := printItems_cancel items items' ht
      exact ⟨rfl, hr⟩

theorem printObject_cancel : ∀ (first second : List (String × JsonValue Empty))
    {rest other : List Char},
    printObject first ++ rest = printObject second ++ other → first = second ∧ rest = other
  | [], second, rest, other, heq => by
    cases second with
    | nil => exact ⟨rfl, tail_eq_of_cons_eq heq⟩
    | cons => simp [printObject, quote] at heq
  | (key, value) :: fields, second, rest, other, heq => by
    cases second with
    | nil => simp [printObject, quote] at heq
    | cons field' fields' =>
      obtain ⟨key', value'⟩ := field'
      simp only [printObject, cons_append, append_assoc] at heq
      obtain ⟨rfl, ht⟩ := quote_cancel heq
      obtain ⟨rfl, hf⟩ := print_cancel value value' (tail_eq_of_cons_eq ht)
      obtain ⟨rfl, hr⟩ := printFields_cancel fields fields' hf
      exact ⟨rfl, hr⟩

theorem printFields_cancel : ∀ (first second : List (String × JsonValue Empty))
    {rest other : List Char},
    printFields first ++ rest = printFields second ++ other → first = second ∧ rest = other
  | [], second, rest, other, heq => by
    cases second with
    | nil => exact ⟨rfl, tail_eq_of_cons_eq heq⟩
    | cons => simp [printFields] at heq
  | (key, value) :: fields, second, rest, other, heq => by
    cases second with
    | nil => simp [printFields] at heq
    | cons field' fields' =>
      obtain ⟨key', value'⟩ := field'
      simp only [printFields, cons_append, append_assoc] at heq
      obtain ⟨rfl, ht⟩ := quote_cancel (tail_eq_of_cons_eq heq)
      obtain ⟨rfl, hf⟩ := print_cancel value value' (tail_eq_of_cons_eq ht)
      obtain ⟨rfl, hr⟩ := printFields_cancel fields fields' hf
      exact ⟨rfl, hr⟩

end

def text (value : JsonValue Empty) : String := String.ofList (print value)

theorem text_injective : Function.Injective text := by
  intro first second heq
  have hp : print first = print second := String.ofList_injective heq
  have hc : print first ++ [] = print second ++ [] := by rw [hp]
  exact (print_cancel first second hc).1

end Nteract.Lib.JsonPrint
