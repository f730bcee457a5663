import Nteract.Lib.Transition
import Nteract.Registry

namespace Nteract.Registry

open Lib Lib.Transition RoomRegistry Option

variable {ι π ρ : Type} [DecidableEq ι] [DecidableEq π]

inductive RegistryOp (ι π ρ : Type)
  | InsertOrGet (uuid : ι) (room : ρ) (path : Option π)
  | BindPath (uuid : ι) (path : π)
  | UnbindPath (path : π)
  | UnbindPathIfUuid (path : π) (uuid : ι)
  | ReplacePath (old new : π) (uuid : ι)
  | Remove (uuid : ι)
  | RemoveIf (uuid : ι) (predicate : ρ → Bool)
  | Drain
  | FreezePublicationAndSnapshot
  | ThawPublication

inductive RegistryReply (ι π ρ : Type)
  | Insert (result : Except (PathIndexError ι π) (InsertOutcome ρ))
  | Bind (result : Except (PathIndexError ι π) Unit)
  | Unbound (removed : Bool)
  | Removed (room : Option ρ)
  | Rooms (rooms : List (ι × ρ))
  | Done

def RegistryReply.isError : RegistryReply ι π ρ → Bool
  | .Insert (.error _) | .Bind (.error _) => true
  | _ => false

def RoomRegistry.perform (registry : RoomRegistry ι π ρ) :
    RegistryOp ι π ρ → RegistryReply ι π ρ × RoomRegistry ι π ρ
  | .InsertOrGet uuid room path =>
    ((.Insert (registry.insertOrGet uuid room path).1), (registry.insertOrGet uuid room path).2)
  | .BindPath uuid path => (.Bind (registry.bindPath uuid path).1, (registry.bindPath uuid path).2)
  | .UnbindPath path => (.Done, registry.unbindPath path)
  | .UnbindPathIfUuid path uuid =>
    (.Unbound (registry.unbindPathIfUuid path uuid).1, (registry.unbindPathIfUuid path uuid).2)
  | .ReplacePath old new uuid =>
    (.Bind (registry.replacePath old new uuid).1, (registry.replacePath old new uuid).2)
  | .Remove uuid => (.Removed (registry.remove uuid).1, (registry.remove uuid).2)
  | .RemoveIf uuid predicate =>
    (.Removed (registry.removeIf uuid predicate).1, (registry.removeIf uuid predicate).2)
  | .Drain => (.Rooms registry.drain.1, registry.drain.2)
  | .FreezePublicationAndSnapshot =>
    (.Rooms registry.freezePublicationAndSnapshot.1, registry.freezePublicationAndSnapshot.2)
  | .ThawPublication => (.Done, registry.thawPublication)

def RegistryStep (before : RoomRegistry ι π ρ) (event : RegistryOp ι π ρ × RegistryReply ι π ρ)
    (after : RoomRegistry ι π ρ) : Prop :=
  before.perform event.1 = (event.2, after)

def Binds (uuid : ι) (path : π) : RegistryOp ι π ρ × RegistryReply ι π ρ → Prop
  | (.InsertOrGet other _ (some bound), .Insert (.ok (.Inserted _))) => uuid = other ∧ path = bound
  | (.BindPath other bound, .Bind (.ok ())) => uuid = other ∧ path = bound
  | (.ReplacePath _ bound other, .Bind (.ok ())) => uuid = other ∧ path = bound
  | _ => False

def Releases (uuid : ι) (path : π) : RegistryOp ι π ρ × RegistryReply ι π ρ → Prop
  | (.UnbindPath released, _) => path = released
  | (.UnbindPathIfUuid released _, .Unbound true) => path = released
  | (.ReplacePath released _ _, .Bind (.ok ())) => path = released
  | (.Remove removed, .Removed (some _)) => uuid = removed
  | (.RemoveIf removed _, .Removed (some _)) => uuid = removed
  | (.Drain, _) => True
  | _ => False

-- The room was given the path by an event of the run, and it was not taken since.
def BoundBy (events : List (RegistryOp ι π ρ × RegistryReply ι π ρ)) (uuid : ι) (path : π) : Prop :=
  ∃ past event later, events = past ++ event :: later ∧ Binds uuid path event ∧
    ∀ other ∈ later, ¬ Releases uuid path other

section Index

variable {index : PathIndex ι π}

omit [DecidableEq ι] in
theorem lookup_remove : (index.remove path).lookup other =
    if other = path then none else index.lookup other :=
  Table.find_remove path other index.inner

theorem lookup_removeByUuid (hl : (index.removeByUuid uuid).lookup other = some owner) :
    index.lookup other = some owner ∧ owner ≠ uuid := by
  unfold PathIndex.removeByUuid PathIndex.lookup at hl
  rw [Table.find_retain] at hl
  split at hl
  · rename_i hk
    have hne : index.inner.find other ≠ some uuid := by simpa using hk
    refine ⟨hl, ?_⟩
    rintro rfl
    exact hne hl
  · cases hl

theorem insert_cases (index : PathIndex ι π) (path : π) (uuid : ι) :
    (∃ bound, index.insert path uuid = (.ok (), bound) ∧
      ∀ other, bound.lookup other = if other = path then some uuid else index.lookup other) ∨
    (∃ owner, index.lookup path = some owner ∧ owner ≠ uuid ∧
      index.insert path uuid = (.error (.PathAlreadyOpen owner path), index)) := by
  unfold PathIndex.insert
  split
  · rename_i owner ho
    split
    · rename_i heq
      refine .inl ⟨index, rfl, fun other => ?_⟩
      split
      · rename_i hother
        rw [hother, ho, heq]
      · rfl
    · rename_i hne
      exact .inr ⟨owner, ho, hne, rfl⟩
  · exact .inl ⟨_, rfl, fun other => Table.find_set path other uuid index.inner⟩

end Index

section Operations

variable (registry : RoomRegistry ι π ρ)

-- A path that is asked for belongs to the room afterwards, or nothing has happened.
theorem insertOrGet_cases (uuid : ι) (room : ρ) (path : Option π) :
    (∃ result, registry.insertOrGet uuid room path = (result, registry) ∧
        ∀ inserted, result ≠ .ok (.Inserted inserted)) ∨
      ∃ bound, registry.insertOrGet uuid room path = (.ok (.Inserted room),
            { registry with rooms := registry.rooms.set uuid room, paths := bound }) ∧
        ∀ other, bound.lookup other =
          if some other = path then some uuid else registry.paths.lookup other := by
  unfold insertOrGet
  split
  · exact .inl ⟨_, rfl, fun _ h => by cases h⟩
  · split
    · exact .inl ⟨_, rfl, fun _ h => by cases h⟩
    · cases path with
      | none => exact .inr ⟨registry.paths, rfl, fun _ => rfl⟩
      | some path =>
        obtain ⟨bound, hb, hl⟩ | ⟨owner, -, -, hr⟩ :=
          insert_cases registry.paths path uuid
        · refine .inr ⟨bound, ?_, fun other => ?_⟩
          · simp [hb]
          · rw [hl]
            simp only [some.injEq]
        · simp only [hr]
          cases registry.rooms.find owner with
          | none | some => exact .inl ⟨_, rfl, fun _ h => by cases h⟩

theorem bindPath_cases (uuid : ι) (path : π) :
    (∃ error, registry.bindPath uuid path = (.error error, registry)) ∨
      registry.acceptingPublication = true ∧
        ∃ bound, registry.bindPath uuid path = (.ok (), { registry with paths := bound }) ∧
          ∀ other, bound.lookup other =
            if other = path then some uuid else registry.paths.lookup other := by
  unfold bindPath
  split
  · exact .inl ⟨_, rfl⟩
  · rename_i ha
    have ha : registry.acceptingPublication = true := by simpa using ha
    obtain ⟨bound, hb, hl⟩ | ⟨owner, -, -, hr⟩ :=
      insert_cases registry.paths path uuid
    · exact .inr ⟨ha, bound, by simp only [hb], hl⟩
    · refine .inl ⟨.PathAlreadyOpen owner path, ?_⟩
      simp [hr]

-- A refused replacement has given up the old path.
theorem replacePath_cases (old new : π) (uuid : ι) :
    registry.replacePath old new uuid = (.error .RegistryFrozen, registry) ∨
      registry.acceptingPublication = true ∧
        ((∃ bound, registry.replacePath old new uuid = (.ok (), { registry with paths := bound }) ∧
            ∀ other, bound.lookup other =
              if other = new then some uuid
              else if other = old then none else registry.paths.lookup other) ∨
          ∃ owner, new ≠ old ∧ registry.paths.lookup new = some owner ∧ owner ≠ uuid ∧
            registry.replacePath old new uuid = (.error (.PathAlreadyOpen owner new),
              { registry with paths := registry.paths.remove old })) := by
  unfold replacePath
  split
  · exact .inl rfl
  · rename_i ha
    have ha : registry.acceptingPublication = true := by simpa using ha
    refine .inr ⟨ha, ?_⟩
    obtain ⟨bound, hb, hl⟩ | ⟨owner, ho, hne, hr⟩ :=
      insert_cases (registry.paths.remove old) new uuid
    · refine .inl ⟨bound, by simp only [hb], fun other => ?_⟩
      rw [hl, lookup_remove]
    · rw [lookup_remove] at ho
      split at ho
      · cases ho
      · rename_i hn
        exact .inr ⟨owner, hn, ho, hne, by simp only [hr]⟩

theorem removeIf_cases (uuid : ι) (predicate : ρ → Bool) :
    registry.removeIf uuid predicate = (none, registry) ∨ ∃ room, registry.removeIf uuid predicate =
        (some room, { registry with
          rooms := registry.rooms.remove uuid
          paths := registry.paths.removeByUuid uuid }) := by
  unfold removeIf
  split
  · exact .inl rfl
  · rename_i room _
    split
    · exact .inl rfl
    · exact .inr ⟨room, rfl⟩

theorem unbindPathIfUuid_cases (path : π) (uuid : ι) :
    registry.unbindPathIfUuid path uuid = (false, registry) ∨
      registry.unbindPathIfUuid path uuid = (true, registry.unbindPath path) := by
  unfold unbindPathIfUuid
  split
  · exact .inr rfl
  · exact .inl rfl

end Operations

section Owners

variable {registry : RoomRegistry ι π ρ}

omit [DecidableEq ι] in
theorem remove_keeps (hl : (registry.unbindPath released).paths.lookup path = some uuid) :
    registry.paths.lookup path = some uuid ∧ path ≠ released := by
  have ho : (registry.paths.remove released).lookup path = some uuid := hl
  rw [lookup_remove] at ho
  split at ho
  · cases ho
  · rename_i hne
    exact ⟨ho, hne⟩

theorem perform_paths (op : RegistryOp ι π ρ)
    (hl : (registry.perform op).2.paths.lookup path = some uuid) :
    Binds uuid path (op, (registry.perform op).1) ∨ registry.paths.lookup path = some uuid ∧
        ¬ Releases uuid path (op, (registry.perform op).1) := by
  cases op with
  | InsertOrGet other room bound =>
    simp only [perform] at hl ⊢
    obtain ⟨_, hstays, -⟩ | ⟨paths, hinserted, hlookup⟩ :=
      insertOrGet_cases registry other room bound
    · rw [hstays] at hl ⊢
      exact .inr ⟨hl, id⟩
    · rw [hinserted] at hl ⊢
      rw [hlookup] at hl
      split at hl
      · rename_i hbound
        subst hbound
        exact .inl ⟨(some.inj hl).symm, rfl⟩
      · exact .inr ⟨hl, id⟩
  | BindPath other bound =>
    simp only [perform] at hl ⊢
    obtain ⟨_, hstays⟩ | ⟨-, paths, hbound, hlookup⟩ := bindPath_cases registry other bound
    · rw [hstays] at hl ⊢
      exact .inr ⟨hl, id⟩
    · rw [hbound] at hl ⊢
      rw [hlookup] at hl
      split at hl
      · rename_i hpath
        exact .inl ⟨(some.inj hl).symm, hpath⟩
      · exact .inr ⟨hl, id⟩
  | UnbindPath => exact .inr (remove_keeps hl)
  | UnbindPathIfUuid released other =>
    simp only [perform] at hl ⊢
    obtain hstays | hunbound := unbindPathIfUuid_cases registry released other
    · rw [hstays] at hl ⊢
      exact .inr ⟨hl, id⟩
    · rw [hunbound] at hl ⊢
      exact .inr (remove_keeps hl)
  | ReplacePath old new other =>
    simp only [perform] at hl ⊢
    obtain hstays | ⟨-, ⟨paths, hbound, hlookup⟩ | ⟨owner, -, -, -, hrefused⟩⟩ :=
      replacePath_cases registry old new other
    · rw [hstays] at hl ⊢
      exact .inr ⟨hl, id⟩
    · rw [hbound] at hl ⊢
      rw [hlookup] at hl
      split at hl
      · rename_i hpath
        exact .inl ⟨(some.inj hl).symm, hpath⟩
      · split at hl
        · cases hl
        · rename_i hold
          exact .inr ⟨hl, hold⟩
    · rw [hrefused] at hl ⊢
      have hkept : (registry.unbindPath old).paths.lookup path = some uuid := hl
      exact .inr ⟨(remove_keeps hkept).1, id⟩
  | Remove other =>
    simp only [perform, remove] at hl ⊢
    obtain hstays | ⟨room, hremoved⟩ := removeIf_cases registry other fun _ => true
    · rw [hstays] at hl ⊢
      exact .inr ⟨hl, id⟩
    · rw [hremoved] at hl ⊢
      exact .inr (lookup_removeByUuid hl)
  | RemoveIf other predicate =>
    simp only [perform] at hl ⊢
    obtain hstays | ⟨room, hremoved⟩ := removeIf_cases registry other predicate
    · rw [hstays] at hl ⊢
      exact .inr ⟨hl, id⟩
    · rw [hremoved] at hl ⊢
      exact .inr (lookup_removeByUuid hl)
  | Drain => cases hl
  | _ => exact .inr ⟨hl, id⟩

-- Every indexed path belongs to a resident room.
def Resident (registry : RoomRegistry ι π ρ) : Prop :=
  ∀ path uuid, registry.paths.lookup path = some uuid → registry.rooms.find uuid ≠ none

-- A path is bound for a resident room, and given up for one that can be had.
def Sound (registry : RoomRegistry ι π ρ) : RegistryOp ι π ρ → Prop
  | .BindPath uuid _ => registry.acceptingPublication = true → registry.rooms.find uuid ≠ none
  | .ReplacePath old new uuid => registry.acceptingPublication = true →
      registry.rooms.find uuid ≠ none ∧
        (new = old ∨ registry.paths.lookup old = none ∨
          ∀ owner, registry.paths.lookup new = some owner → owner = uuid)
  | _ => True

theorem resident_new : Resident (new : RoomRegistry ι π ρ) := fun _ _ hl => nomatch hl

section

variable (hr : Resident registry)
include hr

theorem resident_of_lookup (hrooms : after.rooms = registry.rooms)
    (hp : ∀ path uuid, after.paths.lookup path = some uuid → registry.paths.lookup path = some
      uuid ∨ registry.rooms.find uuid ≠ none) : Resident after := by
  intro path uuid hl
  rw [hrooms]
  rcases hp path uuid hl with ho | hroom
  · exact hr path uuid ho
  · exact hroom

theorem resident_removeIf :
    Resident (registry.removeIf uuid predicate).2 := by
  obtain hs | ⟨room, hremoved⟩ := removeIf_cases registry uuid predicate
  · rw [hs]
    exact hr
  · rw [hremoved]
    intro path owner hl
    obtain ⟨ho, hne⟩ := lookup_removeByUuid hl
    rw [Table.find_remove, if_neg hne]
    exact hr path owner ho

theorem resident_insertOrGet :
    Resident (registry.insertOrGet uuid room path).2 := by
  obtain ⟨_, hs, -⟩ | ⟨_, hi, hlookup⟩ :=
    insertOrGet_cases registry uuid room path
  · rw [hs]
    exact hr
  · rw [hi]
    intro other owner hl
    rw [hlookup] at hl
    rw [Table.find_set]
    split
    · exact fun h => by cases h
    · rename_i hne
      split at hl
      · exact absurd (some.inj hl).symm hne
      · exact hr other owner hl

end

theorem perform_resident (hs : Sound registry op) (hr : Resident registry) :
    Resident (registry.perform op).2 := by
  cases op with
  | InsertOrGet => exact resident_insertOrGet hr
  | BindPath uuid path =>
    simp only [perform]
    obtain ⟨_, hstays⟩ | ⟨ha, bound, hb, hlookup⟩ :=
      bindPath_cases registry uuid path
    · rw [hstays]
      exact hr
    · rw [hb]
      refine resident_of_lookup hr rfl fun other owner hl => ?_
      rw [hlookup] at hl
      split at hl
      · exact .inr (some.inj hl ▸ hs ha)
      · exact .inl hl
  | UnbindPath =>
    exact resident_of_lookup hr rfl fun _ _ hl => .inl (remove_keeps hl).1
  | UnbindPathIfUuid path uuid =>
    simp only [perform]
    obtain hstays | hu := unbindPathIfUuid_cases registry path uuid
    · rw [hstays]
      exact hr
    · rw [hu]
      exact resident_of_lookup hr rfl fun _ _ hl => .inl (remove_keeps hl).1
  | ReplacePath old new uuid =>
    simp only [perform]
    obtain hstays | ⟨ha, ⟨bound, hb, hlookup⟩ | ⟨owner, -, -, -, hrefused⟩⟩ :=
      replacePath_cases registry old new uuid
    · rw [hstays]
      exact hr
    · rw [hb]
      refine resident_of_lookup hr rfl fun other owner hl => ?_
      rw [hlookup] at hl
      split at hl
      · exact .inr (some.inj hl ▸ (hs ha).1)
      · split at hl
        · cases hl
        · exact .inl hl
    · rw [hrefused]
      exact resident_of_lookup hr rfl fun _ _ hl => .inl (remove_keeps hl).1
  | Drain => exact fun _ _ hl => nomatch hl
  | FreezePublicationAndSnapshot | ThawPublication => exact hr
  | _ => exact resident_removeIf hr

theorem perform_error (hs : Sound registry op) (he : (registry.perform op).1.isError = true) :
    (registry.perform op).2 = registry := by
  cases op with
  | InsertOrGet uuid room path =>
    simp only [perform] at he ⊢
    obtain ⟨_, hstays, -⟩ | ⟨bound, hi, -⟩ :=
      insertOrGet_cases registry uuid room path
    · rw [hstays]
    · rw [hi] at he
      cases he
  | BindPath uuid path =>
    simp only [perform] at he ⊢
    obtain ⟨_, hstays⟩ | ⟨-, bound, hb, -⟩ := bindPath_cases registry uuid path
    · rw [hstays]
    · rw [hb] at he
      cases he
  | ReplacePath old new uuid =>
    simp only [perform] at he ⊢
    obtain hstays | ⟨ha, ⟨bound, hb, -⟩ | ⟨owner, hn, ho, hne, hr⟩⟩ :=
      replacePath_cases registry old new uuid
    · rw [hstays]
    · rw [hb] at he
      cases he
    · rw [hr]
      rcases (hs ha).2 with heq | hold | hf
      · exact absurd heq hn
      · have hremove : registry.paths.remove old = registry.paths :=
          congrArg PathIndex.mk (Table.remove_absent hold)
        rw [hremove]
      · exact absurd (hf owner ho) hne
  | _ => cases he

end Owners

omit [DecidableEq ι] [DecidableEq π] in
theorem boundBy_step
    (hb : Binds uuid path event ∨ BoundBy events uuid path ∧ ¬ Releases uuid path event) :
    BoundBy (events ++ [event]) uuid path := by
  rcases hb with hbinds | ⟨⟨past, bound, later, rfl, hbound, hl⟩, hr⟩
  · exact ⟨events, event, [], rfl, hbinds, fun _ hm => absurd hm List.not_mem_nil⟩
  · refine ⟨past, bound, later ++ [event], by simp, hbound, fun other hm => ?_⟩
    rcases List.mem_append.mp hm with hm | hm
    · exact hl other hm
    · exact List.mem_singleton.mp hm ▸ hr

theorem owned_paths_bound (hr : Run RegistryStep new events last) {path : π} {uuid : ι}
    (hl : last.paths.lookup path = some uuid) : BoundBy events uuid path := by
  refine hr.history (fun events registry => ∀ path uuid,
    registry.paths.lookup path = some uuid → BoundBy events uuid path) ?_ nofun path uuid hl
  intro past before event after _ hb hs path uuid hl
  obtain ⟨op, reply⟩ := event
  have hreply : (before.perform op).1 = reply := congrArg Prod.fst hs
  have ha : (before.perform op).2 = after := congrArg Prod.snd hs
  subst hreply ha
  refine boundBy_step ?_
  rcases perform_paths op hl with hbinds | ⟨ho, hreleases⟩
  · exact .inl hbinds
  · exact .inr ⟨hb path uuid ho, hreleases⟩

theorem registry_consistent {events : List (RegistryOp ι π ρ × RegistryReply ι π ρ)}
    {last : RoomRegistry ι π ρ}
    (hr : Run (Guarded RegistryStep fun registry event => Sound registry event.1) new events last) :
    (∀ path uuid, (path, uuid) ∈ last.paths.inner.entries → last.rooms.find uuid ≠ none) ∧
    (∀ path first second, (path, first) ∈ last.paths.inner.entries →
      (path, second) ∈ last.paths.inner.entries → first = second) ∧
    (∀ path uuid, (path, uuid) ∈ last.paths.inner.entries → BoundBy events uuid path) ∧
    ∀ op, Sound last op → (last.perform op).1.isError = true → (last.perform op).2 = last := by
  have hresident : Resident last := by
    refine hr.invariant Resident ?_ resident_new
    rintro before event after hresident ⟨hsound, hstep⟩
    have ha : (before.perform event.1).2 = after := congrArg Prod.snd hstep
    rw [← ha]
    exact perform_resident hsound hresident
  refine ⟨fun path uuid hm => ?_, fun path first second hf hs => ?_, fun path uuid hm => ?_,
    fun op => perform_error⟩
  · exact hresident path uuid (Table.find_eq_some.mpr hm)
  · exact some.inj ((Table.find_eq_some.mpr hf).symm.trans (Table.find_eq_some.mpr hs))
  · exact owned_paths_bound hr.unguarded (Table.find_eq_some.mpr hm)

abbrev NamedRegistry := RoomRegistry Nat String String

-- The state after some operations, with their replies as the events of the run.
def performAll (registry : NamedRegistry) : List (RegistryOp Nat String String) →
    List (RegistryOp Nat String String × RegistryReply Nat String String) × NamedRegistry
  | [] => ([], registry)
  | op :: ops =>
    ((op, (registry.perform op).1) :: (performAll (registry.perform op).2 ops).1,
      (performAll (registry.perform op).2 ops).2)

theorem performAll_run (registry : NamedRegistry) (ops : List (RegistryOp Nat String String)) :
    Run RegistryStep registry (performAll registry ops).1 (performAll registry ops).2 := by
  induction ops generalizing registry with
  | nil => exact .nil registry
  | cons _ _ ih => exact .cons rfl (ih _)

def SAVED_AS : List (RegistryOp Nat String String) :=
  [.InsertOrGet 1 "untitled" none, .BindPath 1 "a.ipynb", .ReplacePath "a.ipynb" "b.ipynb" 1]

theorem saved_as_consistent :
    let last := (performAll new SAVED_AS).2
    last.paths.inner.entries = [("b.ipynb", 1)] ∧
    (∀ path uuid, (path, uuid) ∈ last.paths.inner.entries → last.rooms.find uuid ≠ none) ∧
    (∀ path first second, (path, first) ∈ last.paths.inner.entries →
      (path, second) ∈ last.paths.inner.entries → first = second) ∧
    (∀ path uuid, (path, uuid) ∈ last.paths.inner.entries →
      BoundBy (performAll new SAVED_AS).1 uuid path) ∧
    ∀ op, Sound last op → (last.perform op).1.isError = true → (last.perform op).2 = last := by
  refine ⟨rfl, registry_consistent ?_⟩
  have hr : Sound (performAll new (SAVED_AS.take 2)).2 (.ReplacePath "a.ipynb" "b.ipynb" 1) :=
    fun _ => ⟨nofun, .inr (.inr nofun)⟩
  exact .cons ⟨trivial, rfl⟩ (.cons ⟨fun _ => nofun, rfl⟩ (.cons ⟨hr, rfl⟩ (.nil _)))

-- A binding that arrives after the room is gone, and a replacement that is refused.
theorem registry_inconsistent :
    (∃ events, ∃ last : NamedRegistry, Run RegistryStep new events last ∧
      last.paths.lookup "a.ipynb" = some 1 ∧ last.rooms.find 1 = none) ∧
    ∃ events, ∃ registry : NamedRegistry, Run RegistryStep new events registry ∧
      registry.paths.lookup "a.ipynb" = some 1 ∧
      (registry.perform (.ReplacePath "a.ipynb" "b.ipynb" 1)).1.isError = true ∧
      (registry.perform (.ReplacePath "a.ipynb" "b.ipynb" 1)).2.paths.lookup "a.ipynb" = none := by
  refine ⟨⟨_, _, performAll_run new [.InsertOrGet 1 "first" none, .Remove 1, .BindPath 1 "a.ipynb"],
    rfl, rfl⟩, ⟨_, _, performAll_run new [.InsertOrGet 1 "first" (some "a.ipynb"),
    .InsertOrGet 2 "second" (some "b.ipynb")], rfl, rfl, rfl⟩⟩

end Nteract.Registry
