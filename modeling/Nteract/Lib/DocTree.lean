import Nteract.Lib.Table

namespace Nteract.Lib.DocTree

-- Visible documents as trees, and the patches that lead from one to another.

variable {ν : Type}

-- `NonFinite`: numbers without a decimal form. `Untyped`: bytes, timestamps, unknown scalars.
inductive Scalar (ν : Type)
  | Null
  | Boolean (value : Bool)
  | Number (number : ν)
  | NonFinite
  | Str (text : String)
  | Counter (count : Int)
  | Untyped
deriving DecidableEq

inductive Node (ν : Type)
  | Leaf (scalar : Scalar ν)
  | Map (entries : List (String × Node ν))
  | Seq (items : List (Node ν))
  | Text (chars : List Char)

inductive Key
  | Map (key : String)
  | Seq (index : Nat)
deriving DecidableEq

-- What a patch puts: a scalar or a new empty object, which later patches fill.
inductive Value (ν : Type)
  | Leaf (scalar : Scalar ν)
  | Map
  | Seq
  | Text
deriving DecidableEq

def Value.node : Value ν → Node ν
  | .Leaf scalar => .Leaf scalar
  | .Map => .Map []
  | .Seq => .Seq []
  | .Text => .Text []

inductive PatchAction (ν : Type)
  | PutMap (key : String) (value : Value ν) (conflict : Bool)
  | PutSeq (index : Nat) (value : Value ν) (conflict : Bool)
  | Insert (index : Nat) (values : List (Value ν))
  | SpliceText (index : Nat) (text : List Char)
  | Increment (key : Key) (amount : Int)
  | Conflict (key : Key)
  | DeleteMap (key : String)
  | DeleteSeq (index length : Nat)
  | Mark
deriving DecidableEq

structure Patch (ν : Type) where
  path : List Key
  action : PatchAction ν
deriving DecidableEq

section Entries

variable {α : Type}

def setEntry (key : String) (value : α) : List (String × α) → List (String × α)
  | [] => [(key, value)]
  | entry :: entries =>
    if entry.1 = key then (key, value) :: entries else entry :: setEntry key value entries

def removeEntry (key : String) (entries : List (String × α)) : List (String × α) :=
  entries.filter fun entry => entry.1 ≠ key

theorem lookup_setEntry (key other : String) (value : α) (entries : List (String × α)) :
    (setEntry key value entries).lookup other =
      if other = key then some value else entries.lookup other := by
  induction entries with
  | nil =>
    by_cases ho : other = key
    · simp [setEntry, ho]
    · simp [setEntry, ho]
  | cons entry _ ih =>
    obtain ⟨first, _⟩ := entry
    by_cases hf : first = key
    · subst hf
      by_cases ho : other = first
      · simp [setEntry, ho]
      · have hb : (other == first) = false := by simpa using ho
        simp [setEntry, List.lookup_cons, hb, ho]
    · by_cases ho : other = first
      · subst ho
        simp [setEntry, hf]
      · have hb : (other == first) = false := by simpa using ho
        simp [setEntry, hf, List.lookup_cons, hb, ih]

theorem lookup_removeEntry (key other : String) (entries : List (String × α)) :
    (removeEntry key entries).lookup other = if other = key then none else entries.lookup other :=
  (Table.lookup_filter (· ≠ key) entries other).trans (by simp)

end Entries

namespace Node

def child (node : Node ν) (key : String) : Option (Node ν) :=
  match node with
  | .Map entries => entries.lookup key
  | _ => none

def isMap : Node ν → Bool
  | .Map _ => true
  | _ => false

def asStr : Node ν → Option String
  | .Leaf (.Str text) => some text
  | _ => none

def asText : Node ν → Option (List Char)
  | .Text chars => some chars
  | _ => none

-- The change of the object at the end of a path; `none` where the path leads nowhere.
def modifyAt (change : Node ν → Option (Node ν)) : List Key → Node ν → Option (Node ν)
  | [], node => change node
  | .Map key :: path, .Map entries => do
    let inner ← entries.lookup key
    let inner ← modifyAt change path inner
    some (.Map (setEntry key inner entries))
  | .Seq index :: path, .Seq items => do
    let inner ← items[index]?
    let inner ← modifyAt change path inner
    some (.Seq (items.set index inner))
  | _ :: _, _ => none

def increment (amount : Int) : Node ν → Option (Node ν)
  | .Leaf (.Counter count) => some (.Leaf (.Counter (count + amount)))
  | _ => none

end Node

def PatchAction.apply (action : PatchAction ν) (node : Node ν) : Option (Node ν) :=
  match action, node with
  | .PutMap key value _, .Map entries => some (.Map (setEntry key value.node entries))
  | .DeleteMap key, .Map entries => some (.Map (removeEntry key entries))
  | .PutSeq index value _, .Seq items => some (.Seq (items.set index value.node))
  | .Insert index values, .Seq items =>
    some (.Seq (items.take index ++ values.map Value.node ++ items.drop index))
  | .DeleteSeq index length, .Seq items =>
    some (.Seq (items.take index ++ items.drop (index + length)))
  | .SpliceText index text, .Text chars => some (.Text (chars.take index ++ text ++ chars.drop index))
  | .DeleteSeq index length, .Text chars =>
    some (.Text (chars.take index ++ chars.drop (index + length)))
  | .Increment key amount, node => node.modifyAt (Node.increment amount) [key]
  | .Conflict _, node => some node
  | .Mark, node => some node
  | _, _ => none

def Patch.apply (patch : Patch ν) (node : Node ν) : Option (Node ν) :=
  node.modifyAt patch.action.apply patch.path

def applyAll (patches : List (Patch ν)) (node : Node ν) : Option (Node ν) :=
  patches.foldlM (fun node patch => patch.apply node) node

theorem Node.child_of_not_map {node : Node ν} (hm : node.isMap = false) (key : String) :
    node.child key = none := by
  cases node with
  | Map => cases hm
  | _ => rfl

theorem Node.isMap_of_child {node inner : Node ν} (hc : node.child key = some inner) :
    node.isMap = true := by
  cases hm : node.isMap with
  | true => rfl
  | false =>
    rw [Node.child_of_not_map hm] at hc
    cases hc

theorem Node.modifyAt_map {node after : Node ν}
    (hm : node.modifyAt change (.Map key :: path) = some after) :
    ∃ old new, node.child key = some old ∧ old.modifyAt change path = some new ∧
      after.child key = some new ∧ after.isMap = true ∧
        ∀ other, other ≠ key → after.child other = node.child other := by
  cases node with
  | Map =>
    obtain ⟨old, hold, hm⟩ := Option.bind_eq_some_iff.mp hm
    obtain ⟨new, hn, hm⟩ := Option.bind_eq_some_iff.mp hm
    cases hm
    refine ⟨old, new, hold, hn, by simp [child, lookup_setEntry], rfl, fun other ho => ?_⟩
    simp [child, lookup_setEntry, ho]
  | _ => cases hm

theorem Node.modifyAt_seq {node after : Node ν}
    (hm : node.modifyAt change (.Seq index :: path) = some after) :
    after.isMap = false ∧ node.isMap = false := by
  cases node with
  | Seq =>
    obtain ⟨_, -, hm⟩ := Option.bind_eq_some_iff.mp hm
    obtain ⟨_, -, hm⟩ := Option.bind_eq_some_iff.mp hm
    cases hm
    exact ⟨rfl, rfl⟩
  | _ => cases hm

theorem Node.increment_counter {node after : Node ν} (hi : node.increment amount = some after) :
    ∃ before count, node = .Leaf (.Counter before) ∧ after = .Leaf (.Counter count) := by
  unfold increment at hi
  split at hi
  · cases hi
    exact ⟨_, _, rfl, rfl⟩
  · cases hi

theorem PatchAction.apply_child {action : PatchAction ν} {node after : Node ν} (key : String)
    (ha : action.apply node = some after)
    (hp : ∀ value conflict, action ≠ .PutMap key value conflict)
    (hd : action ≠ .DeleteMap key) :
    after.child key = node.child key ∨
      ∃ before count, node.child key = some (.Leaf (.Counter before)) ∧
        after.child key = some (.Leaf (.Counter count)) := by
  unfold PatchAction.apply at ha
  split at ha
  · rename_i other value conflict entries
    cases ha
    have hne : key ≠ other := by
      rintro rfl
      exact hp value conflict rfl
    exact Or.inl (by simp [Node.child, lookup_setEntry, hne])
  · rename_i other entries
    cases ha
    have hne : key ≠ other := by
      rintro rfl
      exact hd rfl
    exact Or.inl (by simp [Node.child, lookup_removeEntry, hne])
  · cases ha
    exact Or.inl rfl
  · cases ha
    exact Or.inl rfl
  · cases ha
    exact Or.inl rfl
  · cases ha
    exact Or.inl rfl
  · cases ha
    exact Or.inl rfl
  · rename_i step amount
    cases step with
    | Map other =>
      obtain ⟨_, _, ho, hn, hafter, -, hf⟩ := Node.modifyAt_map ha
      by_cases hk : key = other
      · subst hk
        obtain ⟨before, count, rfl, rfl⟩ := Node.increment_counter hn
        exact Or.inr ⟨before, count, ho, hafter⟩
      · exact Or.inl (hf key hk)
    | Seq =>
      obtain ⟨hafter, hb⟩ := Node.modifyAt_seq ha
      rw [Node.child_of_not_map hafter, Node.child_of_not_map hb]
      exact Or.inl rfl
  · cases ha
    exact Or.inl rfl
  · cases ha
    exact Or.inl rfl
  · cases ha

theorem PatchAction.apply_isMap {action : PatchAction ν} (ha : action.apply node = some after) :
    after.isMap = node.isMap := by
  unfold PatchAction.apply at ha
  split at ha
  case h_8 =>
      rename_i step amount
      cases step with
      | Map =>
        obtain ⟨_, _, ho, -, -, hm, -⟩ := Node.modifyAt_map ha
        rw [hm, Node.isMap_of_child ho]
      | Seq =>
        obtain ⟨hafter, hb⟩ := Node.modifyAt_seq ha
        rw [hafter, hb]
  all_goals cases ha
  all_goals rfl

end Nteract.Lib.DocTree
