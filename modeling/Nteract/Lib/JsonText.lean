import Mathlib

-- JSON texts: UTF-8 octets, and the grammar over characters. Numbers keep their spelling.
namespace Nteract.Lib.JsonText

def inRange (low high : Nat) (byte : UInt8) : Bool := decide (low ≤ byte.toNat ∧ byte.toNat ≤ high)

def isTail (byte : UInt8) : Bool := inRange 0x80 0xBF byte

-- The low six bits of a continuation octet.
def payload (byte : UInt8) : Nat := byte.toNat % 64

-- The bounds keep out overlong forms, surrogates and what is too large.
def decodeUtf8 : List UInt8 → Option (List Char)
  | [] => some []
  | lead :: rest =>
    if lead.toNat < 0x80 then
      (decodeUtf8 rest).map (Char.ofNat lead.toNat :: ·)
    else if inRange 0xC2 0xDF lead then
      match rest with
      | second :: rest =>
        if isTail second then
          (decodeUtf8 rest).map (Char.ofNat (lead.toNat % 32 * 64 + payload second) :: ·)
        else
          none
      | _ => none
    else if inRange 0xE0 0xEF lead then
      match rest with
      | second :: third :: rest =>
        let low := if lead.toNat = 0xE0 then 0xA0 else 0x80
        let high := if lead.toNat = 0xED then 0x9F else 0xBF
        if inRange low high second ∧ isTail third then
          (decodeUtf8 rest).map
            (Char.ofNat ((lead.toNat % 16 * 64 + payload second) * 64 + payload third) :: ·)
        else
          none
      | _ => none
    else if inRange 0xF0 0xF4 lead then
      match rest with
      | second :: third :: fourth :: rest =>
        let low := if lead.toNat = 0xF0 then 0x90 else 0x80
        let high := if lead.toNat = 0xF4 then 0x8F else 0xBF
        if inRange low high second ∧ isTail third ∧ isTail fourth then
          (decodeUtf8 rest).map (Char.ofNat (((lead.toNat % 8 * 64 + payload second) * 64 +
            payload third) * 64 + payload fourth) :: ·)
        else
          none
      | _ => none
    else
      none

-- A string is its code points. An escape may leave one half of a surrogate pair alone.
abbrev Points := List Nat

def isHighSurrogate (point : Nat) : Bool := decide (0xD800 ≤ point ∧ point ≤ 0xDBFF)

def isLowSurrogate (point : Nat) : Bool := decide (0xDC00 ≤ point ∧ point ≤ 0xDFFF)

def isSurrogate (point : Nat) : Bool := isHighSurrogate point || isLowSurrogate point

def points (text : String) : Points := text.toList.map Char.toNat

structure NumberLiteral where
  negative : Bool
  integer : List Nat
  fraction : Option (List Nat)
  exponent : Option (Bool × List Nat)
deriving DecidableEq

inductive Json
  | Null
  | Bool (value : Bool)
  | Number (literal : NumberLiteral)
  | String (text : Points)
  | Array (items : List Json)
  | Object (fields : List (Points × Json))

def isSpace (char : Char) : Bool := [' ', '\t', '\n', '\r'].contains char

def skipSpace : List Char → List Char
  | char :: rest => if isSpace char then skipSpace rest else char :: rest
  | [] => []

def digit (char : Char) : Option Nat :=
  if 48 ≤ char.toNat ∧ char.toNat ≤ 57 then some (char.toNat - 48) else none

def hexDigit (char : Char) : Option Nat :=
  if 48 ≤ char.toNat ∧ char.toNat ≤ 57 then some (char.toNat - 48)
  else if 97 ≤ char.toNat ∧ char.toNat ≤ 102 then some (char.toNat - 87)
  else if 65 ≤ char.toNat ∧ char.toNat ≤ 70 then some (char.toNat - 55)
  else none

def parseDigits : List Char → List Nat × List Char
  | [] => ([], [])
  | char :: rest =>
    match digit char with
    | some value =>
      let parsed := parseDigits rest
      (value :: parsed.1, parsed.2)
    | none => ([], char :: rest)

section Numbers

variable (text : List Char)

def parseDigits1 : Option (List Nat × List Char) :=
  match parseDigits text with
  | ([], _) => none
  | parsed => some parsed

def parseInteger : Option (List Nat × List Char) :=
  match text with
  | '0' :: rest => some ([0], rest)
  | _ => parseDigits1 text

def parseFraction : Option (Option (List Nat) × List Char) :=
  match text with
  | '.' :: rest => (parseDigits1 rest).map fun (digits, rest) => (some digits, rest)
  | _ => some (none, text)

def parseExponentDigits : Option (Option (Bool × List Nat) × List Char) :=
  match text with
  | '-' :: rest => (parseDigits1 rest).map fun (digits, rest) => (some (true, digits), rest)
  | '+' :: rest => (parseDigits1 rest).map fun (digits, rest) => (some (false, digits), rest)
  | _ => (parseDigits1 text).map fun (digits, rest) => (some (false, digits), rest)

def parseExponent : Option (Option (Bool × List Nat) × List Char) :=
  match text with
  | 'e' :: rest => parseExponentDigits rest
  | 'E' :: rest => parseExponentDigits rest
  | _ => some (none, text)

def parseNumber : Option (NumberLiteral × List Char) := do
  let (negative, text) := match text with
    | '-' :: rest => (true, rest)
    | _ => (false, text)
  let (integer, text) ← parseInteger text
  let (fraction, text) ← parseFraction text
  let (exponent, text) ← parseExponent text
  return (⟨negative, integer, fraction, exponent⟩, text)

end Numbers

def parseHex4 (a b c d : Char) : Option Nat := do
  let a ← hexDigit a
  let b ← hexDigit b
  let c ← hexDigit c
  let d ← hexDigit d
  return ((a * 16 + b) * 16 + c) * 16 + d

def simpleEscape : Char → Option Nat
  | '"' => some 0x22
  | '\\' => some 0x5C
  | '/' => some 0x2F
  | 'b' => some 0x08
  | 'f' => some 0x0C
  | 'n' => some 0x0A
  | 'r' => some 0x0D
  | 't' => some 0x09
  | _ => none

def parseChars : List Char → Option (Points × List Char)
  | [] => none
  | '"' :: rest => some ([], rest)
  | '\\' :: 'u' :: a :: b :: c :: d :: rest => do
    let point ← parseHex4 a b c d
    let (points, rest) ← parseChars rest
    return (point :: points, rest)
  | '\\' :: char :: rest => do
    let point ← simpleEscape char
    let (points, rest) ← parseChars rest
    return (point :: points, rest)
  | char :: rest =>
    if char.toNat < 0x20 ∨ char = '\\' then
      none
    else do
      let (points, rest) ← parseChars rest
      return (char.toNat :: points, rest)

-- Two escapes may spell one code point.
def joinPairs : Points → Points
  | high :: low :: rest =>
    if isHighSurrogate high ∧ isLowSurrogate low then
      ((high - 0xD800) * 1024 + (low - 0xDC00) + 0x10000) :: joinPairs rest
    else
      high :: joinPairs (low :: rest)
  | points => points

def parseString (text : List Char) : Option (Points × List Char) :=
  (parseChars text).map fun (points, rest) => (joinPairs points, rest)

-- Every call but one into a first member consumes: twice the length is enough.
mutual

def parseValue : Nat → List Char → Option (Json × List Char)
  | 0, _ => none
  | fuel + 1, text =>
    match skipSpace text with
    | 'n' :: 'u' :: 'l' :: 'l' :: rest => some (.Null, rest)
    | 't' :: 'r' :: 'u' :: 'e' :: rest => some (.Bool true, rest)
    | 'f' :: 'a' :: 'l' :: 's' :: 'e' :: rest => some (.Bool false, rest)
    | '"' :: rest => (parseString rest).map fun (text, rest) => (.String text, rest)
    | '[' :: rest =>
      match skipSpace rest with
      | ']' :: rest => some (.Array [], rest)
      | rest => (parseItems fuel rest).map fun (items, rest) => (.Array items, rest)
    | '\x7b' :: rest =>
      match skipSpace rest with
      | '\x7d' :: rest => some (.Object [], rest)
      | rest => (parseFields fuel rest).map fun (fields, rest) => (.Object fields, rest)
    | text => (parseNumber text).map fun (literal, rest) => (.Number literal, rest)

def parseItems : Nat → List Char → Option (List Json × List Char)
  | 0, _ => none
  | fuel + 1, text => do
    let (item, rest) ← parseValue fuel text
    match skipSpace rest with
    | ',' :: rest =>
      let (items, rest) ← parseItems fuel rest
      return (item :: items, rest)
    | ']' :: rest => return ([item], rest)
    | _ => none

def parseFields : Nat → List Char → Option (List (Points × Json) × List Char)
  | 0, _ => none
  | fuel + 1, text =>
    match skipSpace text with
    | '"' :: rest => do
      let (name, rest) ← parseString rest
      match skipSpace rest with
      | ':' :: rest =>
        let (value, rest) ← parseValue fuel rest
        match skipSpace rest with
        | ',' :: rest =>
          let (fields, rest) ← parseFields fuel rest
          return ((name, value) :: fields, rest)
        | '\x7d' :: rest => return ([(name, value)], rest)
        | _ => none
      | _ => none
    | _ => none

end

def parse (text : List Char) : Option Json :=
  match parseValue (2 * text.length + 2) text with
  | some (value, rest) => if skipSpace rest = [] then some value else none
  | none => none

-- The last of several members with one name counts.
def lookupLast (name : Points) (fields : List (Points × Json)) : Option Json :=
  (fields.reverse.find? fun field => decide (field.1 = name)).map (·.2)

def natOfDigits (digits : List Nat) : Nat := digits.foldl (fun value digit => value * 10 + digit) 0

-- The length in UTF-8; a lone surrogate is replaced by U+FFFD.
def utf8Length (text : Points) : Nat :=
  (text.map fun point =>
    if point < 0x80 then 1 else if point < 0x800 then 2 else if point < 0x10000 then 3 else 4).sum

end Nteract.Lib.JsonText
