import Nteract.Lib.Table

namespace Nteract.Registry

open Lib

-- `ι` are the room ids, `π` the canonical paths and `ρ` the rooms.
variable {ι π ρ : Type} [DecidableEq ι] [DecidableEq π]

inductive PathIndexError (ι π : Type)
  | PathAlreadyOpen (uuid : ι) (path : π)
  | RegistryFrozen
deriving DecidableEq

structure PathIndex (ι π : Type) where
  inner : Table π ι
deriving DecidableEq

namespace PathIndex

variable (index : PathIndex ι π)

def lookup (path : π) : Option ι := index.inner.find path

def insert (path : π) (uuid : ι) : Except (PathIndexError ι π) Unit × PathIndex ι π :=
  match index.lookup path with
  | some existing =>
    if existing = uuid then (.ok (), index)
    else (.error (.PathAlreadyOpen existing path), index)
  | none => (.ok (), ⟨index.inner.set path uuid⟩)

def remove (path : π) : PathIndex ι π := ⟨index.inner.remove path⟩

def removeByUuid (uuid : ι) : PathIndex ι π :=
  ⟨index.inner.retain fun path => index.lookup path ≠ some uuid⟩

end PathIndex

inductive InsertOutcome (ρ : Type)
  | Inserted (room : ρ)
  | Existing (room : ρ)
deriving DecidableEq

-- Every operation holds the lock of the registry from its start to its end.
structure RoomRegistry (ι π ρ : Type) where
  rooms : Table ι ρ
  paths : PathIndex ι π
  acceptingPublication : Bool

namespace RoomRegistry

def new : RoomRegistry ι π ρ := ⟨Table.empty, ⟨Table.empty⟩, true⟩

variable (registry : RoomRegistry ι π ρ)

-- A room that is there wins, by its id or by its path.
def insertOrGet (uuid : ι) (room : ρ) (path : Option π) :
    Except (PathIndexError ι π) (InsertOutcome ρ) × RoomRegistry ι π ρ :=
  if registry.acceptingPublication = false then (.error .RegistryFrozen, registry)
  else
    match registry.rooms.find uuid with
    | some existing => (.ok (.Existing existing), registry)
    | none =>
      match path with
      | none => (.ok (.Inserted room), { registry with rooms := registry.rooms.set uuid room })
      | some path =>
        match registry.paths.insert path uuid with
        | (.ok (), paths) =>
          (.ok (.Inserted room),
            { registry with rooms := registry.rooms.set uuid room, paths := paths })
        | (.error (.PathAlreadyOpen other taken), paths) =>
          match registry.rooms.find other with
          | some existing => (.ok (.Existing existing), { registry with paths := paths })
          | none => (.error (.PathAlreadyOpen other taken), { registry with paths := paths })
        | (.error error, paths) => (.error error, { registry with paths := paths })

-- The id is not looked up.
def bindPath (uuid : ι) (path : π) : Except (PathIndexError ι π) Unit × RoomRegistry ι π ρ :=
  if registry.acceptingPublication = false then (.error .RegistryFrozen, registry)
  else
    let (result, paths) := registry.paths.insert path uuid
    (result, { registry with paths := paths })

def unbindPath (path : π) : RoomRegistry ι π ρ :=
  { registry with paths := registry.paths.remove path }

def unbindPathIfUuid (path : π) (uuid : ι) : Bool × RoomRegistry ι π ρ :=
  if registry.paths.lookup path = some uuid then (true, registry.unbindPath path)
  else (false, registry)

-- The old path is given up before the new one is asked for.
def replacePath (old new : π) (uuid : ι) :
    Except (PathIndexError ι π) Unit × RoomRegistry ι π ρ :=
  if registry.acceptingPublication = false then (.error .RegistryFrozen, registry)
  else
    let (result, paths) := (registry.paths.remove old).insert new uuid
    (result, { registry with paths := paths })

def drain : List (ι × ρ) × RoomRegistry ι π ρ :=
  (registry.rooms.entries, { registry with rooms := Table.empty, paths := ⟨Table.empty⟩ })

def freezePublicationAndSnapshot : List (ι × ρ) × RoomRegistry ι π ρ :=
  (registry.rooms.entries, { registry with acceptingPublication := false })

def thawPublication : RoomRegistry ι π ρ := { registry with acceptingPublication := true }

def removeIf (uuid : ι) (predicate : ρ → Bool) : Option ρ × RoomRegistry ι π ρ :=
  match registry.rooms.find uuid with
  | none => (none, registry)
  | some room =>
    if predicate room = false then (none, registry)
    else
      (some room, { registry with
        rooms := registry.rooms.remove uuid
        paths := registry.paths.removeByUuid uuid })

def remove (uuid : ι) : Option ρ × RoomRegistry ι π ρ := registry.removeIf uuid fun _ => true

end RoomRegistry

end Nteract.Registry
