import Nteract.Lib.DocTree
import Nteract.Lib.JsonPrint

namespace Nteract.Guarded

open Lib Lib.DocTree

section Diff

variable {ν : Type}

structure ChangedFields where
  source : Bool := false
  outputs : Bool := false
  executionCount : Bool := false
  cellType : Bool := false
  metadata : Bool := false
  position : Bool := false
  resolvedAssets : Bool := false
deriving DecidableEq

-- A change of `execution_id` points the cell at other outputs.
def ChangedFields.setField (fields : ChangedFields) (name : String) : ChangedFields :=
  if name = "source" then { fields with source := true }
  else if name = "outputs" then { fields with outputs := true }
  else if name = "execution_count" then { fields with executionCount := true }
  else if name = "cell_type" then { fields with cellType := true }
  else if name = "metadata" then { fields with metadata := true }
  else if name = "position" then { fields with position := true }
  else if name = "resolved_assets" then { fields with resolvedAssets := true }
  else if name = "execution_id" then { fields with outputs := true }
  else fields

def ChangedFields.isEmpty (fields : ChangedFields) : Bool := fields = {}

structure ChangedCell where
  cellId : String
  fields : ChangedFields
deriving DecidableEq

structure CellChangeset where
  changed : List ChangedCell
  added : List String
  removed : List String
  orderChanged : Bool
deriving DecidableEq

structure TextPatch where
  cellId : String
  index : Nat
  text : List Char
  deleted : Nat
deriving DecidableEq

structure DocChangeset where
  cells : CellChangeset
  metadataChanged : Bool
  textPatches : List TextPatch
deriving DecidableEq

def DocChangeset.empty : DocChangeset := ⟨⟨[], [], [], false⟩, false, []⟩

def touchesMetadata (patch : Patch ν) : Bool :=
  match patch.path, patch.action with
  | .Map key :: _, _ => key = "metadata"
  | [], .PutMap key _ _ => key = "metadata"
  | [], .DeleteMap key => key = "metadata"
  | _, _ => false

-- The part of a path after its first key `cells`.
def pathAfterCells : List Key → Option (List Key)
  | [] => none
  | .Map key :: path => if key = "cells" then some path else pathAfterCells path
  | .Seq _ :: path => pathAfterCells path

inductive Touch
  | Added (cellId : String)
  | Removed (cellId : String)
  | Field (cellId name : String) (reorders : Bool)
deriving DecidableEq

def touchOf (patch : Patch ν) : Option Touch :=
  match pathAfterCells patch.path with
  | none => none
  | some [] =>
    match patch.action with
    | .PutMap key _ _ => some (.Added key)
    | .DeleteMap key => some (.Removed key)
    | _ => none
  | some [.Map cellId] =>
    match patch.action with
    | .PutMap key _ _ => some (.Field cellId key (key = "position"))
    | .DeleteMap key => some (.Field cellId key false)
    | _ => none
  | some (.Map cellId :: .Map name :: _) => some (.Field cellId name (name = "position"))
  | some (.Map _ :: .Seq _ :: _) => none
  | some (.Seq _ :: _) => none

def textPatchOf (patch : Patch ν) : Option TextPatch :=
  match pathAfterCells patch.path with
  | some (.Map cellId :: .Map name :: _) =>
    if name = "source" then
      match patch.action with
      | .SpliceText index text => if text = [] then none else some ⟨cellId, index, text, 0⟩
      | .DeleteSeq index length => some ⟨cellId, index, [], length⟩
      | _ => none
    else
      none
  | _ => none

structure Walk where
  cellFields : Table String ChangedFields := .empty
  added : List String := []
  removed : List String := []
  orderChanged : Bool := false
  metadataChanged : Bool := false
  textPatches : List TextPatch := []

def Walk.touch (walk : Walk) : Touch → Walk
  | .Added cellId => { walk with added := walk.added.insert cellId, orderChanged := true }
  | .Removed cellId => { walk with removed := walk.removed.insert cellId, orderChanged := true }
  | .Field cellId name reorders =>
    -- the fields of a cell that was just added are read with the cell
    if cellId ∈ walk.added then
      walk
    else
      { walk with
        cellFields := walk.cellFields.set cellId
          (((walk.cellFields.find cellId).getD {}).setField name)
        orderChanged := walk.orderChanged || reorders }

def Walk.step (walk : Walk) (patch : Patch ν) : Walk :=
  let walk := { walk with
    metadataChanged := walk.metadataChanged || touchesMetadata patch
    textPatches := walk.textPatches ++ (textPatchOf patch).toList }
  match touchOf patch with
  | some touch => walk.touch touch
  | none => walk

def Walk.finish (walk : Walk) : DocChangeset where
  cells :=
    { changed := walk.cellFields.entries.filterMap fun entry =>
        if entry.1 ∈ walk.added ∨ entry.1 ∈ walk.removed ∨ entry.2.isEmpty then
          none
        else
          some ⟨entry.1, entry.2⟩
      added := walk.added
      removed := walk.removed
      orderChanged := walk.orderChanged }
  metadataChanged := walk.metadataChanged
  textPatches := walk.textPatches

def classifyPatches (patches : List (Patch ν)) : DocChangeset :=
  (patches.foldl Walk.step {}).finish

end Diff

section Document

-- A document with its history. Unknown heads add nothing, and the patches between two sets of heads
-- are exact.
structure Document (η ν : Type) where
  contains : η → Bool
  heads : List η
  stateAt : List η → Node ν
  diff : List η → List η → List (Patch ν)
  stateAt_known : ∀ heads, stateAt heads = stateAt (heads.filter contains)
  stateAt_nil : stateAt [] = .Map []
  diff_exact : ∀ before after, applyAll (diff before after) (stateAt before) = some (stateAt after)

variable {η ν : Type}

def Document.now (doc : Document η ν) : Node ν := doc.stateAt doc.heads

def diffDoc [DecidableEq η] (doc : Document η ν) (before after : List η) : DocChangeset :=
  if before = [] then .empty
  else if before = after then .empty
  else classifyPatches (doc.diff before after)

end Document

section Readers

variable {ν : Type}

structure CellSnapshot where
  id : String
  cellType : String
  position : String
  source : String
  executionCount : String
deriving DecidableEq

def readStr (node : Node ν) (key : String) : Option String := (node.child key).bind Node.asStr

def readText (node : Node ν) (key : String) : Option (List Char) :=
  (node.child key).bind Node.asText

def cellTypeOf (cell : Node ν) : String := (readStr cell "cell_type").getD ""

def sourceOf (cell : Node ν) : String := String.ofList ((readText cell "source").getD [])

def readCell (cell : Node ν) : Option CellSnapshot := do
  let id ← readStr cell "id"
  some
    { id := id
      cellType := cellTypeOf cell
      position := (readStr cell "position").getD "80"
      source := sourceOf cell
      executionCount := (readStr cell "execution_count").getD "null" }

def cellObj (state : Node ν) (cellId : String) : Option (Node ν) := do
  let cells ← state.child "cells"
  let cell ← cells.child cellId
  if cell.isMap then some cell else none

def keyLe {α : Type} (first second : String × α) : Prop := first.1 ≤ second.1

instance {α : Type} : DecidableRel (@keyLe α) := fun first second =>
  inferInstanceAs (Decidable (first.1 ≤ second.1))

def cellLe (first second : CellSnapshot) : Prop :=
  first.position < second.position ∨ first.position = second.position ∧ first.id ≤ second.id

instance : DecidableRel cellLe := fun first second =>
  inferInstanceAs (Decidable (first.position < second.position ∨
    first.position = second.position ∧ first.id ≤ second.id))

-- All cells in document order; the keys of a map come in their own order.
def getCells (state : Node ν) : List CellSnapshot :=
  match state.child "cells" with
  | some (.Map entries) =>
    let cells := (entries.insertionSort keyLe).filterMap fun entry =>
      if entry.2.isMap then readCell entry.2 else none
    cells.insertionSort cellLe
  | _ => []

def scalarToJson : Scalar ν → Option (JsonValue ν)
  | .Null => some .Null
  | .Boolean value => some (.Boolean value)
  | .Number number => some (.Number number)
  | .NonFinite => some .Null
  | .Str text => some (.Str text)
  | .Counter _ => none
  | .Untyped => none

mutual

def readJsonValue : Node ν → Option (JsonValue ν)
  | .Leaf scalar => scalarToJson scalar
  | .Map entries => some (.Object (readJsonFields entries))
  | .Seq items => some (.Array (readJsonItems items))
  | .Text chars => some (.Str (String.ofList chars))

def readJsonFields : List (String × Node ν) → List (String × JsonValue ν)
  | [] => []
  | (key, node) :: entries =>
    match readJsonValue node with
    | some value => (key, value) :: readJsonFields entries
    | none => readJsonFields entries

def readJsonItems : List (Node ν) → List (JsonValue ν)
  | [] => []
  | node :: nodes => (readJsonValue node).getD .Null :: readJsonItems nodes

end

structure UvInlineMetadata where
  dependencies : List String
  requiresPython : Option String
  prerelease : Option String
deriving DecidableEq

structure CondaInlineMetadata where
  dependencies : List String
  channels : List String
  python : Option String
deriving DecidableEq

structure PixiInlineMetadata where
  dependencies : List String
  pypiDependencies : List String
  channels : List String
  python : Option String
deriving DecidableEq

structure DenoMetadata where
  permissions : List String
  importMap : Option String
  config : Option String
  flexibleNpmImports : Option Bool
deriving DecidableEq

structure RuntMetadata (ν : Type) where
  schemaVersion : String
  envId : Option String
  uv : Option UvInlineMetadata
  conda : Option CondaInlineMetadata
  pixi : Option PixiInlineMetadata
  deno : Option DenoMetadata
  extra : List (String × JsonValue ν)

def RuntMetadata.default : RuntMetadata ν := ⟨"1", none, none, none, none, none, []⟩

inductive Pep723Error
  | DuplicateScriptBlock
  | InvalidToml (message : String)
deriving DecidableEq

def Pep723Error.toString : Pep723Error → String
  | .DuplicateScriptBlock => "multiple # /// script blocks found (PEP 723 requires exactly one)"
  | .InvalidToml message => s!"invalid TOML in script block: {message}"

structure Pep723Metadata where
  dependencies : List String
  requiresPython : Option String
deriving DecidableEq

structure Reading (η ν K L : Type) where
  kernelspec : JsonValue ν → Option K
  languageInfo : JsonValue ν → Option L
  runt : JsonValue ν → Option (RuntMetadata ν)
  parsePep723 : String → Except Pep723Error (Option Pep723Metadata)
  changeHash : String → Option η

structure MetadataSnapshot (ν K L : Type) where
  kernelspec : Option K
  languageInfo : Option L
  runt : RuntMetadata ν
  extras : List (String × JsonValue ν)

def isSnapshotReservedMetadataKey (key : String) : Bool :=
  key ∈ ["kernelspec", "language_info", "runt", "runtime", "ephemeral"]

variable {η K L : Type} (reading : Reading η ν K L)

def readKey (metadata : Node ν) (key : String) : Option (JsonValue ν) :=
  (metadata.child key).bind readJsonValue

def metadataMap (state : Node ν) : Option (Node ν) := do
  let metadata ← state.child "metadata"
  if metadata.isMap then some metadata else none

def scanMetadataExtras (metadata : Node ν) : List (String × JsonValue ν) :=
  match readJsonValue metadata with
  | some (.Object fields) => fields.filter fun field => !isSnapshotReservedMetadataKey field.1
  | _ => []

def getPyodideManifest (metadata : Node ν) : Option (JsonValue ν) := do
  let runt ← metadata.child "runt"
  if runt.isMap then readKey runt "pyodide" else none

-- A snapshot unless nothing was there to read.
def assembleSnapshot (kernelspec : Option K) (languageInfo : Option L)
    (runt : Option (RuntMetadata ν)) (extras : List (String × JsonValue ν)) :
    Option (MetadataSnapshot ν K L) :=
  if kernelspec.isSome || languageInfo.isSome || runt.isSome || !extras.isEmpty then
    some ⟨kernelspec, languageInfo, runt.getD .default, extras⟩
  else
    none

-- The current reader shows the Pyodide manifest also where the typed reading failed.
def getMetadataSnapshot (state : Node ν) : Option (MetadataSnapshot ν K L) := do
  let metadata ← metadataMap state
  let runt := (readKey metadata "runt").bind reading.runt
  let runt :=
    match getPyodideManifest metadata with
    | some manifest =>
      let runt := runt.getD .default
      some { runt with extra := setEntry "pyodide" manifest runt.extra }
    | none => runt
  assembleSnapshot ((readKey metadata "kernelspec").bind reading.kernelspec)
    ((readKey metadata "language_info").bind reading.languageInfo) runt (scanMetadataExtras metadata)

-- The historical reader does not.
def getMetadataSnapshotAtHeads (state : Node ν) : Option (MetadataSnapshot ν K L) := do
  let metadata ← metadataMap state
  assembleSnapshot ((readKey metadata "kernelspec").bind reading.kernelspec)
    ((readKey metadata "language_info").bind reading.languageInfo)
    ((readKey metadata "runt").bind reading.runt) (scanMetadataExtras metadata)

def strings (items : List String) : JsonValue Empty := .Array (items.map .Str)

-- A field that is left out when it is empty.
def optionalField {α : Type} (key : String) (toJson : α → JsonValue Empty) (value : Option α) :
    List (String × JsonValue Empty) :=
  match value with
  | some value => [(key, toJson value)]
  | none => []

def UvInlineMetadata.toJson (uv : UvInlineMetadata) : JsonValue Empty :=
  .Object (("dependencies", strings uv.dependencies) ::
    (optionalField "requires-python" .Str uv.requiresPython ++ optionalField "prerelease" .Str uv.prerelease))

def CondaInlineMetadata.toJson (conda : CondaInlineMetadata) : JsonValue Empty :=
  .Object (("dependencies", strings conda.dependencies) :: ("channels", strings conda.channels) ::
    optionalField "python" .Str conda.python)

def PixiInlineMetadata.toJson (pixi : PixiInlineMetadata) : JsonValue Empty :=
  .Object (("dependencies", strings pixi.dependencies) ::
    ("pypi_dependencies", strings pixi.pypiDependencies) :: ("channels", strings pixi.channels) ::
      optionalField "python" .Str pixi.python)

def signable (runt : RuntMetadata ν) : List (String × JsonValue Empty) :=
  optionalField "uv" UvInlineMetadata.toJson runt.uv ++
    optionalField "conda" CondaInlineMetadata.toJson runt.conda ++
    optionalField "pixi" PixiInlineMetadata.toJson runt.pixi

def MetadataSnapshot.dependencyFingerprint (snapshot : MetadataSnapshot ν K L) : String :=
  JsonPrint.text (.Object (signable snapshot.runt))

def findPep723InSources (sources : List String) : Except Pep723Error (Option Pep723Metadata) :=
  sources.foldlM
    (fun result source => do
      match ← reading.parsePep723 source with
      | none => pure result
      | some found => if result.isSome then throw .DuplicateScriptBlock else pure (some found))
    none

def pep723DependenciesFromCells (cells : List CellSnapshot) : Except Pep723Error (List String) := do
  let sources := (cells.filter fun cell => cell.cellType = "code").map CellSnapshot.source
  let found ← findPep723InSources reading sources
  pure ((found.map Pep723Metadata.dependencies).getD [])

end Readers

variable {η ν K L : Type} [DecidableEq η] (reading : Reading η ν K L) (doc : Document η ν)

def NOT_READY : String := "Notebook state was not ready. Review before running again."

def NOT_RECOGNIZED : String := "Notebook state was not recognized. Review before running again."

def CELL_CHANGED : String := "Cell changed or already ran. Review before running again."

def NOTEBOOK_CHANGED : String :=
  "Notebook changed before Run All could start. Review before running again."

def DEPENDENCIES_CHANGED : String :=
  "Dependencies changed while the trust dialog was open. Review before syncing."

def parseHeads (heads : List String) : Except String (List η) :=
  heads.mapM fun head =>
    match reading.changeHash head with
    | some hash => .ok hash
    | none => .error NOT_RECOGNIZED

def diffFromObservedHeads (observed : List η) : DocChangeset :=
  diffDoc doc observed doc.heads

def diffFromObserved (observed : List String) : Except String DocChangeset :=
  if observed = [] then
    .error NOT_READY
  else do
    let observed ← parseHeads reading observed
    pure (diffFromObservedHeads doc observed)

def cellChanged (cells : CellChangeset) (cellId : String) : Bool :=
  cells.removed.contains cellId || cells.added.contains cellId ||
    cells.changed.any fun changed =>
      changed.cellId = cellId &&
        (changed.fields.source || changed.fields.cellType || changed.fields.outputs)

def validateExecuteCell (cellId : String) (observed : List String) : Except String Unit := do
  let changes ← diffFromObserved reading doc observed
  if cellChanged changes.cells cellId then throw CELL_CHANGED else pure ()

-- Id and source of a code cell are what a user agrees to run.
def codeCellGuardSnapshots (state : Node ν) : List (String × String) :=
  ((getCells state).filter fun cell => cell.cellType = "code").map fun cell => (cell.id, cell.source)

def validateRunAll (observed : List String) : Except String Unit :=
  if observed = [] then
    .error NOT_READY
  else do
    let observed ← parseHeads reading observed
    if codeCellGuardSnapshots (doc.stateAt observed) = codeCellGuardSnapshots doc.now then
      pure ()
    else
      throw NOTEBOOK_CHANGED

def dependencyFingerprint (metadata : Option String) (pep723 : Except Pep723Error (List String)) :
    String :=
  let metadata : JsonValue Empty :=
    match metadata with
    | some text => .Str text
    | none => .Null
  let pep723 : JsonValue Empty :=
    match pep723 with
    | .ok dependencies => .Object [("Ok", strings dependencies)]
    | .error error => .Object [("Err", .Str error.toString)]
  JsonPrint.text (.Array [metadata, pep723])

def currentDependencyFingerprint : String :=
  dependencyFingerprint
    ((getMetadataSnapshot reading doc.now).map MetadataSnapshot.dependencyFingerprint)
    (pep723DependenciesFromCells reading (getCells doc.now))

def dependencyFingerprintAtObservedHeads (observed : List η) : Except String String :=
  if observed = [] then
    .error NOT_READY
  else
    .ok (dependencyFingerprint
      ((getMetadataSnapshotAtHeads reading (doc.stateAt observed)).map
        MetadataSnapshot.dependencyFingerprint)
      (pep723DependenciesFromCells reading (getCells (doc.stateAt observed))))

def validateSyncEnvironment (observed : List String) : Except String Unit := do
  let observed ← parseHeads reading observed
  let reviewed ← dependencyFingerprintAtObservedHeads reading doc observed
  if currentDependencyFingerprint reading doc = reviewed then
    pure ()
  else
    throw DEPENDENCIES_CHANGED

end Nteract.Guarded
