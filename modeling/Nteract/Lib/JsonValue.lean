import Nteract.Lib.Table

namespace Nteract.Lib

-- JSON values over any type of numbers. Fields are in the order of their keys.
inductive JsonValue (ν : Type)
  | Null
  | Boolean (value : Bool)
  | Number (number : ν)
  | Str (text : String)
  | Array (items : List (JsonValue ν))
  | Object (fields : List (String × JsonValue ν))

namespace JsonValue

variable {ν : Type}

section Equality

variable [DecidableEq ν]

mutual

def beq : JsonValue ν → JsonValue ν → Bool
  | .Null, .Null => true
  | .Boolean first, .Boolean second => first == second
  | .Number first, .Number second => decide (first = second)
  | .Str first, .Str second => first == second
  | .Array first, .Array second => beqItems first second
  | .Object first, .Object second => beqFields first second
  | _, _ => false

def beqItems : List (JsonValue ν) → List (JsonValue ν) → Bool
  | [], [] => true
  | first :: firsts, second :: seconds => beq first second && beqItems firsts seconds
  | _, _ => false

def beqFields : List (String × JsonValue ν) → List (String × JsonValue ν) → Bool
  | [], [] => true
  | (firstKey, first) :: firsts, (secondKey, second) :: seconds =>
    firstKey == secondKey && beq first second && beqFields firsts seconds
  | _, _ => false

end

mutual

theorem beq_iff : ∀ first second : JsonValue ν, beq first second = true ↔ first = second
  | .Null, second => by cases second <;> simp [beq]
  | .Boolean first, second => by cases second <;> simp [beq]
  | .Number first, second => by cases second <;> simp [beq]
  | .Str first, second => by cases second <;> simp [beq]
  | .Array first, second => by
    cases second with
    | Array second => simp [beq, beqItems_iff first second]
    | _ => simp [beq]
  | .Object first, second => by
    cases second with
    | Object second => simp [beq, beqFields_iff first second]
    | _ => simp [beq]

theorem beqItems_iff : ∀ firsts seconds : List (JsonValue ν),
    beqItems firsts seconds = true ↔ firsts = seconds
  | [], seconds => by cases seconds <;> simp [beqItems]
  | first :: firsts, seconds => by
    cases seconds with
    | nil => simp [beqItems]
    | cons second seconds => simp [beqItems, beq_iff first second, beqItems_iff firsts seconds]

theorem beqFields_iff : ∀ firsts seconds : List (String × JsonValue ν),
    beqFields firsts seconds = true ↔ firsts = seconds
  | [], seconds => by cases seconds <;> simp [beqFields]
  | (firstKey, first) :: firsts, seconds => by
    cases seconds with
    | nil => simp [beqFields]
    | cons second seconds =>
      obtain ⟨secondKey, second⟩ := second
      simp [beqFields, beq_iff first second, beqFields_iff firsts seconds, and_assoc]

end

instance : DecidableEq (JsonValue ν) := fun first second =>
  decidable_of_iff (beq first second = true) (beq_iff first second)

end Equality

def asStr : JsonValue ν → Option String
  | .Str text => some text
  | _ => none

def asObject : JsonValue ν → Option (List (String × JsonValue ν))
  | .Object fields => some fields
  | _ => none

def get (value : JsonValue ν) (key : String) : Option (JsonValue ν) :=
  value.asObject.bind (List.lookup key)

def isObject (value : JsonValue ν) : Bool := value.asObject.isSome

def without (keys : List String) (fields : List (String × JsonValue ν)) :
    List (String × JsonValue ν) :=
  fields.filter fun field => decide (field.1 ∉ keys)

theorem lookup_without (hk : key ∉ keys) (fields : List (String × JsonValue ν)) :
    (without keys fields).lookup key = fields.lookup key :=
  (Table.lookup_filter (· ∉ keys) fields key).trans (by simp [hk])

end JsonValue

end Nteract.Lib
