import Nteract.Lib.Double
import Nteract.Lib.JsonText

namespace Nteract.KeyedDoc

open Lib.Double Lib.JsonText List Option

abbrev Bytes := List UInt8

def MAX_KEYED_DOC_FRAME_HEADER_LEN : Nat := 4 * 1024

def MAX_KEYED_DOC_KIND_LEN : Nat := 64

def MAX_KEYED_DOC_ID_LEN : Nat := 512

structure KeyedDocKey where
  kind : Points
  id : Points
deriving DecidableEq

structure KeyedDocFrameHeader where
  kind : Points
  id : Points
  epoch : Nat
deriving DecidableEq

-- `Json` and `Field` carry an error of serde_json.
inductive InvalidHeader
  | Json
  | NotAnObject
  | Field
  | Kind
  | Id (length : Nat)
deriving DecidableEq

inductive KeyedDocFrameError
  | Truncated
  | HeaderTooLarge (length : Nat)
  | InvalidHeader (reason : InvalidHeader)
deriving DecidableEq

def isKindPoint (point : Nat) : Bool :=
  decide (97 ≤ point ∧ point ≤ 122 ∨ 48 ≤ point ∧ point ≤ 57 ∨ point = 95)

def fromBeBytes (a b c d : UInt8) : Nat :=
  ((a.toNat * 256 + b.toNat) * 256 + c.toNat) * 256 + d.toNat

namespace KeyedDocFrameHeader

def key (header : KeyedDocFrameHeader) : KeyedDocKey := ⟨header.kind, header.id⟩

def validate (header : KeyedDocFrameHeader) : Except KeyedDocFrameError Unit :=
  if header.kind = [] ∨ MAX_KEYED_DOC_KIND_LEN < utf8Length header.kind ∨
      header.kind.all isKindPoint = false then
    .error (.InvalidHeader .Kind)
  else if header.id = [] ∨ MAX_KEYED_DOC_ID_LEN < utf8Length header.id then
    .error (.InvalidHeader (.Id (utf8Length header.id)))
  else
    .ok ()

end KeyedDocFrameHeader

def U64_MAX : Nat := 2 ^ 64 - 1

-- The digits that still fit the u64 significand, and how many do not.
def addDigits : Nat → List Nat → Nat × Nat
  | significand, [] => (significand, 0)
  | significand, digit :: digits =>
    if U64_MAX < significand * 10 + digit then (significand, digits.length + 1)
    else addDigits (significand * 10 + digit) digits

-- serde_json's decimal significand and exponent of a number.
def serdeParts (literal : NumberLiteral) : Nat × ℤ :=
  let whole := addDigits 0 literal.integer
  let fraction := literal.fraction.getD []
  let parts := addDigits whole.1 fraction
  let start : ℤ := whole.2 - (fraction.length - parts.2)
  match literal.exponent with
  | some (true, digits) => (parts.1, start - natOfDigits digits)
  | some (false, digits) => (parts.1, start + natOfDigits digits)
  | none => (parts.1, start)

-- f64_from_parts, which multiplies by a power of ten from a table that ends at 1e308.
def outOfRange (literal : NumberLiteral) : Bool :=
  let (significand, exponent) := serdeParts literal
  decide (significand ≠ 0 ∧ 0 ≤ exponent ∧ (308 < exponent ∨
    2 ^ 1024 ≤ nearest (nearest significand * nearest (10 ^ exponent))))

def isWhole (text : Points) : Bool := text.all fun point => !isSurrogate point

def RECURSION_LIMIT : Nat := 128

-- What serde_json builds a value from: no lone surrogate, which a Rust string cannot hold, no
-- number beyond f64, and nothing that is nested too deeply.
mutual

def isHeld (remainingDepth : Nat) : Json → Bool
  | .String text => isWhole text
  | .Number literal => !outOfRange literal
  | .Array items => decide (1 < remainingDepth) && allHeld (remainingDepth - 1) items
  | .Object fields => decide (1 < remainingDepth) && fieldsHeld (remainingDepth - 1) fields
  | _ => true

def allHeld (remainingDepth : Nat) : List Json → Bool
  | [] => true
  | item :: items => isHeld remainingDepth item && allHeld remainingDepth items

def fieldsHeld (remainingDepth : Nat) : List (Points × Json) → Bool
  | [] => true
  | (name, value) :: fields =>
    isWhole name && isHeld remainingDepth value && fieldsHeld remainingDepth fields

end

def serdeFromSlice (bytes : Bytes) : Option Json := do
  let text ← decodeUtf8 bytes
  let value ← parse text
  if isHeld RECURSION_LIMIT value then some value else none

-- serde reads a u64 only from an integer without a sign; "-0" is a float to it.
def asU64 (literal : NumberLiteral) : Option Nat :=
  if literal.negative = false ∧ literal.fraction = none ∧ literal.exponent = none ∧
      natOfDigits literal.integer < 2 ^ 64 then
    some (natOfDigits literal.integer)
  else
    none

-- Unknown fields are ignored.
def serdeFromFields (fields : List (Points × Json)) : Option KeyedDocFrameHeader :=
  match lookupLast (points "kind") fields, lookupLast (points "id") fields,
      lookupLast (points "epoch") fields with
  | some (.String kind), some (.String id), some (.Number literal) =>
    (asU64 literal).map fun epoch => ⟨kind, id, epoch⟩
  | _, _, _ => none

def headerFromFields (fields : List (Points × Json)) :
    Except KeyedDocFrameError KeyedDocFrameHeader :=
  match serdeFromFields fields with
  | none => .error (.InvalidHeader .Field)
  | some header =>
    match header.validate with
    | .error error => .error error
    | .ok () => .ok header

def headerFromSlice (bytes : Bytes) : Except KeyedDocFrameError KeyedDocFrameHeader :=
  match serdeFromSlice bytes with
  | none => .error (.InvalidHeader .Json)
  | some (.Object fields) => headerFromFields fields
  | some _ => .error (.InvalidHeader .NotAnObject)

def tryParse (payload : Bytes) : Except KeyedDocFrameError (KeyedDocFrameHeader × Bytes) :=
  match payload with
  | a :: b :: c :: d :: rest =>
    let headerLen := fromBeBytes a b c d
    if MAX_KEYED_DOC_FRAME_HEADER_LEN < headerLen then
      .error (.HeaderTooLarge headerLen)
    else if rest.length < headerLen then
      .error .Truncated
    else
      match headerFromSlice (rest.take headerLen) with
      | .error error => .error error
      | .ok header => .ok (header, rest.drop headerLen)
  | _ => .error .Truncated

def frameOf (header : Bytes) : Bytes :=
  [0, 0, UInt8.ofNat (header.length / 256), UInt8.ofNat (header.length % 256)] ++ header

def ascii (text : String) : Bytes := text.toList.map fun char => UInt8.ofNat char.toNat

def PLAIN_HEADER : Bytes := ascii "\x7b\"kind\":\"a\",\"id\":\"b\",\"epoch\":1\x7d"

end Nteract.KeyedDoc
