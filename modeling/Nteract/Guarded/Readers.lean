import Nteract.Guarded

namespace Nteract.Guarded

open Lib Lib.DocTree Option

variable {η ν K L : Type} {reading : Reading η ν K L}

-- The reader of the sync client, which does not look at the Pyodide manifest either.
def getMetadataSnapshotFromDoc (reading : Reading η ν K L) (state : Node ν) :
    Option (MetadataSnapshot ν K L) := do
  let metadata ← metadataMap state
  assembleSnapshot ((readKey metadata "kernelspec").bind reading.kernelspec)
    ((readKey metadata "language_info").bind reading.languageInfo)
    ((readKey metadata "runt").bind reading.runt) (scanMetadataExtras metadata)

-- What serde reads of `runt` keeps the keys that have no field of their own.
def KeepsManifest (reading : Reading η ν K L) : Prop :=
  ∀ fields runt manifest, reading.runt (.Object fields) = some runt →
    ("pyodide", manifest) ∈ fields → runt.extra.lookup "pyodide" = some manifest

-- A Pyodide manifest is part of a `runt` section that serde can read.
def ManifestTyped (reading : Reading η ν K L) (state : Node ν) : Prop :=
  ∀ metadata manifest, metadataMap state = some metadata →
    getPyodideManifest metadata = some manifest →
    ((readKey metadata "runt").bind reading.runt).isSome = true

theorem setEntry_of_lookup {α : Type} {entries : List (String × α)} {value : α}
    (hl : entries.lookup key = some value) : setEntry key value entries = entries := by
  induction entries with
  | nil => cases hl
  | cons entry _ ih =>
    obtain ⟨first, _⟩ := entry
    by_cases hf : first = key
    · subst hf
      rw [List.lookup_cons_self, some.injEq] at hl
      simp [setEntry, hl]
    · have hb : (key == first) = false := by simpa using Ne.symm hf
      rw [List.lookup_cons, hb] at hl
      simp [setEntry, hf, ih hl]

theorem mem_readJsonFields {entries : List (String × Node ν)}
    (hl : entries.lookup key = some node) (hr : readJsonValue node = some value) :
    (key, value) ∈ readJsonFields entries := by
  induction entries with
  | nil => cases hl
  | cons entry _ ih =>
    obtain ⟨first, _⟩ := entry
    by_cases hf : key = first
    · subst hf
      rw [List.lookup_cons_self, some.injEq] at hl
      simp [readJsonFields, hl, hr]
    · have hb : (key == first) = false := by simpa using hf
      rw [List.lookup_cons, hb] at hl
      unfold readJsonFields
      split
      · exact .tail _ (ih hl)
      · exact ih hl

theorem manifest_shown (hk : KeepsManifest reading)
    (hp : getPyodideManifest metadata = some manifest)
    (hr : (readKey metadata "runt").bind reading.runt = some runt) :
    setEntry "pyodide" manifest runt.extra = runt.extra := by
  obtain ⟨section_, hs, hp⟩ := bind_eq_some_iff.mp hp
  rw [ite_none_right_eq_some] at hp
  cases section_ with
  | Map entries =>
    obtain ⟨_, hn, hv⟩ := bind_eq_some_iff.mp hp.2
    rw [readKey, hs] at hr
    exact setEntry_of_lookup (hk _ _ _ hr (mem_readJsonFields hn hv))
  | _ => cases hp.1

theorem readers_agree_iff (hm : metadataMap state = some metadata)
    (hp : getPyodideManifest metadata = some manifest) (hk : KeepsManifest reading) :
    getMetadataSnapshotFromDoc reading state = getMetadataSnapshot reading state ↔
      ((readKey metadata "runt").bind reading.runt).isSome = true := by
  cases hr : (readKey metadata "runt").bind reading.runt with
  | some =>
    simp [getMetadataSnapshotFromDoc, getMetadataSnapshot, hm, hp, hr, manifest_shown hk hp hr]
  | none =>
    -- only the current reader has the manifest in the section, which is else the default one
    have hd : ∀ snapshot ∈ getMetadataSnapshotFromDoc reading state, snapshot.runt.extra = [] := by
      simp [getMetadataSnapshotFromDoc, hm, hr, assembleSnapshot, RuntMetadata.default]
    have hs : ∃ snapshot ∈ getMetadataSnapshot reading state,
        snapshot.runt.extra = [("pyodide", manifest)] := by
      simp [getMetadataSnapshot, hm, hp, hr, assembleSnapshot, RuntMetadata.default, setEntry]
    obtain ⟨snapshot, hm, hx⟩ := hs
    refine iff_of_false (fun he => ?_) Bool.false_ne_true
    simpa [hx] using hd snapshot (he ▸ hm)

-- The readers agree, at the current heads the historical one too, exactly where the manifest can be
-- read with its section.
theorem metadata_readers_agree (state : Node ν) (hk : KeepsManifest reading) :
    (getMetadataSnapshotFromDoc reading state = getMetadataSnapshot reading state ∧
        getMetadataSnapshotAtHeads reading state = getMetadataSnapshot reading state) ↔
      ManifestTyped reading state := by
  have ha : getMetadataSnapshotFromDoc reading state = getMetadataSnapshot reading state ↔
      ManifestTyped reading state := by
    constructor
    · intro he metadata manifest hm hp
      exact (readers_agree_iff hm hp hk).mp he
    · intro ht
      cases hm : metadataMap state with
      | none => simp [getMetadataSnapshotFromDoc, getMetadataSnapshot, hm]
      | some metadata =>
        cases hp : getPyodideManifest metadata with
        | none => simp [getMetadataSnapshotFromDoc, getMetadataSnapshot, hm, hp]
        | some manifest => exact (readers_agree_iff hm hp hk).mpr (ht metadata manifest hm hp)
  exact ⟨fun he => ha.mp he.1, fun ht => ⟨ha.mpr ht, ha.mpr ht⟩⟩

-- `runt` is read with its schema version only.
def versionedReading : Reading Nat Empty Unit Unit where
  kernelspec := fun _ => none
  languageInfo := fun _ => none
  runt := fun value =>
    match value with
    | .Object [("pyodide", manifest), ("schema_version", .Str version)] =>
      some ⟨version, none, none, none, none, none, [("pyodide", manifest)]⟩
    | _ => none
  parsePep723 := fun _ => .ok none
  changeHash := fun _ => none

def runtState (fields : List (String × Node Empty)) : Node Empty :=
  .Map [("metadata", .Map [("runt", .Map (("pyodide", .Leaf (.Str "numpy")) :: fields))])]

theorem versioned_manifest_agrees :
    getMetadataSnapshotFromDoc versionedReading (runtState [("schema_version", .Leaf (.Str "1"))]) =
      getMetadataSnapshot versionedReading (runtState [("schema_version", .Leaf (.Str "1"))]) := by
  refine ((metadata_readers_agree _ ?_).mpr ?_).1
  · intro fields runt manifest hr hm
    dsimp only [versionedReading] at hr
    split at hr
    · rename_i he
      cases he
      cases hr
      simpa [eq_comm] using hm
    · cases hr
  · rintro _ _ ⟨⟩ -
    rfl

-- Without a schema version only one reader shows the manifest.
theorem legacy_manifest_disagrees :
    getMetadataSnapshotFromDoc versionedReading (runtState []) = none ∧
      getMetadataSnapshotAtHeads versionedReading (runtState []) = none ∧
      ((getMetadataSnapshot versionedReading (runtState [])).map fun snapshot =>
        snapshot.runt.extra.map Prod.fst) = some ["pyodide"] :=
  ⟨rfl, rfl, rfl⟩

end Nteract.Guarded
