import Nteract.Guarded

namespace Nteract.Guarded

open Lib Lib.DocTree Option Function JsonValue
open List hiding after head

variable {η ν K L : Type}

def ChangedFields.stops (fields : ChangedFields) : Bool :=
  fields.source || fields.cellType || fields.outputs

def stoppingFields : List String := ["source", "outputs", "cell_type", "execution_id"]

theorem stops_setField {fields : ChangedFields} (name : String) (hs : fields.stops = true) :
    (fields.setField name).stops = true := by
  unfold ChangedFields.setField
  repeat' split
  all_goals simp_all [ChangedFields.stops]

theorem stops_setField_of_mem (fields : ChangedFields) (hn : name ∈ stoppingFields) :
    (fields.setField name).stops = true := by
  simp only [stoppingFields, mem_cons, not_mem_nil, or_false] at hn
  rcases hn with rfl | rfl | rfl | rfl <;>
    simp [ChangedFields.setField, ChangedFields.stops]

def Flagged (walk : Walk) (cellId : String) : Prop :=
  cellId ∈ walk.added ∨ cellId ∈ walk.removed ∨
    ∃ fields, walk.cellFields.find cellId = some fields ∧ fields.stops = true

def Touch.Flags (cellId : String) : Touch → Prop
  | .Added other => other = cellId
  | .Removed other => other = cellId
  | .Field other name _ => other = cellId ∧ name ∈ stoppingFields

theorem flagged_touch (touch : Touch) (hf : Flagged walk cellId) :
    Flagged (walk.touch touch) cellId := by
  cases touch with
  | Added =>
    rcases hf with ha | hr | hfields
    · exact Or.inl (mem_insert_of_mem ha)
    · exact Or.inr (Or.inl hr)
    · exact Or.inr (Or.inr hfields)
  | Removed =>
    rcases hf with ha | hr | hfields
    · exact Or.inl ha
    · exact Or.inr (Or.inl (mem_insert_of_mem hr))
    · exact Or.inr (Or.inr hfields)
  | Field other name =>
    simp only [Walk.touch]
    split
    · exact hf
    · rcases hf with ha | hr | ⟨fields, hfind, hs⟩
      · exact Or.inl ha
      · exact Or.inr (Or.inl hr)
      · refine Or.inr (Or.inr ?_)
        by_cases ho : cellId = other
        · subst ho
          refine ⟨fields.setField name, ?_, stops_setField name hs⟩
          simp [Table.find_set, hfind]
        · refine ⟨fields, ?_, hs⟩
          simp [Table.find_set, ho, hfind]

theorem flagged_of_flags {walk : Walk} (hf : touch.Flags cellId) :
    Flagged (walk.touch touch) cellId := by
  cases touch with
  | Added =>
    obtain rfl := hf
    exact Or.inl mem_insert_self
  | Removed =>
    obtain rfl := hf
    exact Or.inr (Or.inl mem_insert_self)
  | Field other name =>
    obtain ⟨rfl, hn⟩ := hf
    simp only [Walk.touch]
    split
    · rename_i ha
      exact Or.inl ha
    · refine Or.inr (Or.inr ⟨((walk.cellFields.find other).getD {}).setField name, ?_,
        stops_setField_of_mem _ hn⟩)
      simp [Table.find_set]

theorem flagged_step (patch : Patch ν)
    (hf : Flagged walk cellId ∨ ∃ touch, touchOf patch = some touch ∧ touch.Flags cellId) :
    Flagged (walk.step patch) cellId := by
  unfold Walk.step
  rcases hf with hf | ⟨_, ht, hflags⟩
  · split
    · exact flagged_touch _ hf
    · exact hf
  · rw [ht]
    exact flagged_of_flags hflags

theorem flagged_foldl {patches : List (Patch ν)}
    (hf : Flagged walk cellId ∨ ∃ patch ∈ patches, ∃ touch, touchOf patch = some touch ∧
      touch.Flags cellId) : Flagged (patches.foldl Walk.step walk) cellId := by
  induction patches generalizing walk with
  | nil =>
    rcases hf with hf | ⟨patch, hp, -⟩
    · exact hf
    · cases hp
  | cons patch _ ih =>
    rcases hf with hf | ⟨other, ho, hflags⟩
    · exact ih (Or.inl (flagged_step patch (Or.inl hf)))
    · rcases mem_cons.mp ho with rfl | ho
      · exact ih (Or.inl (flagged_step other (Or.inr hflags)))
      · exact ih (Or.inr ⟨other, ho, hflags⟩)

theorem cellChanged_finish (hf : Flagged walk cellId) :
    cellChanged walk.finish.cells cellId = true := by
  simp only [cellChanged, Bool.or_eq_true, List.contains_iff_mem, List.any_eq_true]
  by_cases hr : cellId ∈ walk.removed
  · exact Or.inl (Or.inl hr)
  by_cases ha : cellId ∈ walk.added
  · exact Or.inl (Or.inr ha)
  rcases hf with hf | hf | ⟨fields, hfind, hs⟩
  · exact absurd hf ha
  · exact absurd hf hr
  · have hfilled : fields.isEmpty = false := by
      cases he : fields.isEmpty with
      | false => rfl
      | true =>
        rw [of_decide_eq_true he] at hs
        cases hs
    refine Or.inr ⟨⟨cellId, fields⟩, ?_, ?_⟩
    · refine List.mem_filterMap.mpr ⟨(cellId, fields), Table.find_eq_some.mp hfind, ?_⟩
      simp [hr, ha, hfilled]
    · simpa [ChangedFields.stops] using hs

-- A cell that is there afterwards was there before, with the same type and source.
def Keeps (before after : Node ν) (cellId : String) : Prop :=
  ∀ cell, cellObj after cellId = some cell → ∃ reviewed, cellObj before cellId = some reviewed ∧
    cellTypeOf cell = cellTypeOf reviewed ∧ sourceOf cell = sourceOf reviewed

theorem Keeps.refl (state : Node ν) (cellId : String) : Keeps state state cellId :=
  fun cell hc => ⟨cell, hc, rfl, rfl⟩

theorem Keeps.trans (hf : Keeps first middle cellId) (hl : Keeps middle last cellId) :
    Keeps first last cellId := by
  intro cell hc
  obtain ⟨between, hb, ht, hs⟩ := hl cell hc
  obtain ⟨reviewed, hr, htype', hsource'⟩ := hf between hb
  exact ⟨reviewed, hr, ht.trans htype', hs.trans hsource'⟩

theorem cellObj_eq_some :
    cellObj state cellId = some cell ↔ ∃ cells, state.child "cells" = some cells ∧
      cells.child cellId = some cell ∧ cell.isMap = true := by
  simp only [cellObj, bind_eq_bind, bind_eq_some_iff]
  constructor
  · rintro ⟨cells, hcells, _, hi, hc⟩
    split at hc
    · cases hc
      exact ⟨cells, hcells, hi, by assumption⟩
    · cases hc
  · rintro ⟨cells, hcells, hc, hm⟩
    exact ⟨cells, hcells, cell, hc, by simp [hm]⟩

theorem Keeps.of_cells (hcells : after.child "cells" = before.child "cells") :
    Keeps before after cellId := by
  intro cell hc
  refine ⟨cell, ?_, rfl, rfl⟩
  rw [cellObj_eq_some] at hc ⊢
  rwa [hcells] at hc

theorem Keeps.of_cell {before after old new : Node ν} (hb : before.child "cells" = some old)
    (ha : after.child "cells" = some new)
    (hcell : ∀ cell, new.child cellId = some cell → cell.isMap = true → ∃ reviewed, old.child
      cellId = some reviewed ∧ reviewed.isMap = true ∧ cellTypeOf cell = cellTypeOf reviewed ∧
      sourceOf cell = sourceOf reviewed) : Keeps before after cellId := by
  intro cell hf
  obtain ⟨_, hc, hchild, hm⟩ := cellObj_eq_some.mp hf
  rw [ha] at hc
  cases hc
  obtain ⟨reviewed, hr, ho, ht, hs⟩ := hcell cell hchild hm
  exact ⟨reviewed, cellObj_eq_some.mpr ⟨old, hb, hr, ho⟩, ht, hs⟩

theorem reads_of_child {before after : Node ν}
    (hc : after.child key = before.child key ∨ ∃ old new, before.child key = some (.Leaf
      (.Counter old)) ∧ after.child key = some (.Leaf (.Counter new))) :
    readStr after key = readStr before key ∧ readText after key = readText before key := by
  unfold readStr readText
  rcases hc with hc | ⟨_, _, ho, hn⟩
  · rw [hc]
    exact ⟨rfl, rfl⟩
  · rw [ho, hn]
    exact ⟨rfl, rfl⟩

theorem same_cell (ht : readStr after "cell_type" = readStr before "cell_type")
    (hs : readText after "source" = readText before "source") :
    cellTypeOf after = cellTypeOf before ∧ sourceOf after = sourceOf before := by
  unfold cellTypeOf sourceOf
  rw [ht, hs]
  exact ⟨rfl, rfl⟩

theorem not_stopping_ne (hn : name ∉ stoppingFields) : "cell_type" ≠ name ∧ "source" ≠ name := by
  constructor
  · rintro rfl
    exact hn (by decide)
  · rintro rfl
    exact hn (by decide)

theorem keeps_inside_cell {before after : Node ν}
    (hm : before.modifyAt action.apply rest = some after)
    (ht : ∀ touch, touchOf ⟨.Map "cells" :: .Map cellId :: rest, action⟩ = some touch → ¬
      touch.Flags cellId) (hmap : after.isMap = true) :
    before.isMap = true ∧ cellTypeOf after = cellTypeOf before ∧ sourceOf after = sourceOf before := by
  cases rest with
  | nil =>
    have ha : action.apply before = some after := hm
    have hk : ∀ key ∈ stoppingFields, after.child key = before.child key ∨
        ∃ old new, before.child key = some (.Leaf (.Counter old)) ∧
          after.child key = some (.Leaf (.Counter new)) := by
      intro key hkey
      refine action.apply_child key ha ?_ ?_
      · rintro _ _ rfl
        exact ht (.Field cellId key (key = "position")) rfl ⟨rfl, hkey⟩
      · rintro rfl
        exact ht (.Field cellId key false) rfl ⟨rfl, hkey⟩
    have htype := (reads_of_child (hk "cell_type" (by decide))).1
    have hs := (reads_of_child (hk "source" (by decide))).2
    exact ⟨(action.apply_isMap ha) ▸ hmap, same_cell htype hs⟩
  | cons step =>
    cases step with
    | Map name =>
      have hn : name ∉ stoppingFields := fun hn =>
        ht (.Field cellId name (name = "position")) rfl ⟨rfl, hn⟩
      obtain ⟨hne, hne'⟩ := not_stopping_ne hn
      obtain ⟨_, _, ho, -, -, -, hf⟩ := Node.modifyAt_map hm
      have htype := (reads_of_child (Or.inl (hf "cell_type" hne))).1
      have hs := (reads_of_child (Or.inl (hf "source" hne'))).2
      exact ⟨Node.isMap_of_child ho, same_cell htype hs⟩
    | Seq =>
      rw [(Node.modifyAt_seq hm).1] at hmap
      cases hmap

theorem keeps_inside_cells {before after old new : Node ν}
    (hb : before.child "cells" = some old) (ha : after.child "cells" = some new)
    (hm : old.modifyAt action.apply rest = some new)
    (ht : ∀ touch, touchOf ⟨.Map "cells" :: rest, action⟩ = some touch → ¬ touch.Flags cellId) : Keeps before after cellId := by
  refine .of_cell hb ha fun cell hc hmap => ?_
  have hs : old.child cellId = some cell → ∃ reviewed, old.child cellId = some reviewed ∧
      reviewed.isMap = true ∧ cellTypeOf cell = cellTypeOf reviewed ∧
        sourceOf cell = sourceOf reviewed := fun hold => ⟨cell, hold, hmap, rfl, rfl⟩
  cases rest with
  | nil =>
    have happly : action.apply old = some new := hm
    have hk := action.apply_child cellId happly
      (by rintro _ _ rfl; exact ht (.Added cellId) rfl rfl)
      (by rintro rfl; exact ht (.Removed cellId) rfl rfl)
    rcases hk with hk | ⟨_, _, -, hcounter⟩
    · exact hs (hk ▸ hc)
    · rw [hcounter] at hc
      cases hc
      cases hmap
  | cons step =>
    cases step with
    | Map other =>
      obtain ⟨inner, _, hi, hm, hinner', -, hf⟩ := Node.modifyAt_map hm
      by_cases ho : cellId = other
      · subst ho
        rw [hinner'] at hc
        cases hc
        exact ⟨inner, hi, keeps_inside_cell hm ht hmap⟩
      · exact hs (hf cellId ho ▸ hc)
    | Seq =>
      rw [Node.child_of_not_map (Node.modifyAt_seq hm).1] at hc
      cases hc

theorem child_child_node (value : Value ν) (cellId : String) : value.node.child cellId = none := by
  cases value <;> rfl

theorem keeps_patch (ha : patch.apply before = some after)
    (ht : ∀ touch, touchOf patch = some touch → ¬ touch.Flags cellId) :
    Keeps before after cellId := by
  obtain ⟨path, action⟩ := patch
  have hg : ∀ cells, after.child "cells" = some cells → cells.child cellId = none →
      Keeps before after cellId := by
    intro cells hcells hn cell hc
    obtain ⟨found, hf, hchild, -⟩ := cellObj_eq_some.mp hc
    rw [hcells] at hf
    cases hf
    rw [hn] at hchild
    cases hchild
  cases path with
  | nil =>
    by_cases hp : ∃ value conflict, action = .PutMap "cells" value conflict
    · -- a new cells map is empty
      obtain ⟨value, conflict, rfl⟩ := hp
      cases before with
      | Map =>
        cases ha
        refine hg value.node ?_ (child_child_node value cellId)
        simp [Node.child, lookup_setEntry]
      | Leaf | Seq | Text => cases ha
    by_cases hd : action = .DeleteMap "cells"
    · subst hd
      cases before with
      | Map =>
        cases ha
        intro cell hc
        obtain ⟨_, hf, -⟩ := cellObj_eq_some.mp hc
        simp [Node.child, lookup_removeEntry] at hf
      | Leaf | Seq | Text => cases ha
    · have hk := action.apply_child "cells" ha
        (fun value conflict he => hp ⟨value, conflict, he⟩) hd
      rcases hk with hk | ⟨_, _, -, hcounter⟩
      · exact .of_cells hk
      · exact hg _ hcounter rfl
  | cons step =>
    cases step with
    | Map key =>
      obtain ⟨_, _, ho, hm, hnew, -, hframe⟩ := Node.modifyAt_map ha
      by_cases hkey : "cells" = key
      · subst hkey
        exact keeps_inside_cells ho hnew hm ht
      · exact .of_cells (hframe "cells" hkey)
    | Seq =>
      intro cell hc
      obtain ⟨_, hf, -⟩ := cellObj_eq_some.mp hc
      rw [Node.child_of_not_map (Node.modifyAt_seq ha).1] at hf
      cases hf

theorem keeps_applyAll (ha : applyAll patches before = some after)
    (ht : ∀ patch ∈ patches, ∀ touch, touchOf patch = some touch → ¬ touch.Flags cellId) :
    Keeps before after cellId := by
  induction patches generalizing before with
  | nil =>
    cases ha
    exact .refl _ _
  | cons _ _ ih =>
    unfold applyAll at ha
    obtain ⟨_, hm, ha⟩ := bind_eq_some_iff.mp ha
    rw [forall_mem_cons] at ht
    exact (keeps_patch hm ht.1).trans (ih ha ht.2)

-- The sections that an approval covers, as the typed metadata shows them.
def sectionsOf (runt : RuntMetadata ν) :
    Option UvInlineMetadata × Option CondaInlineMetadata × Option PixiInlineMetadata :=
  (runt.uv, runt.conda, runt.pixi)

def sections (reading : Reading η ν K L) (state : Node ν) :
    Option UvInlineMetadata × Option CondaInlineMetadata × Option PixiInlineMetadata :=
  sectionsOf (((metadataMap state).bind fun metadata =>
    (readKey metadata "runt").bind reading.runt).getD .default)

theorem strings_injective : Injective strings := by
  intro first second heq
  have hi := Array.inj heq
  exact map_injective_iff.mpr (fun _ _ h => Str.inj h) hi

theorem mem_optionalField (hm : (name, json) ∈ optionalField key toJson value) : name = key := by
  cases value with
  | none => cases hm
  | some => exact (Prod.mk.inj (mem_singleton.mp hm)).1

theorem optionalField_append (hi : Injective toJson)
    (hr : ∀ json, (key, json) ∉ rest) (ho : ∀ json, (key, json) ∉ other)
    (heq : optionalField key toJson first ++ rest = optionalField key toJson second ++ other) :
    first = second ∧ rest = other := by
  cases first with
  | none =>
    cases second with
    | none => exact ⟨rfl, heq⟩
    | some value =>
      have hin : (key, toJson value) ∈ optionalField key toJson none ++ rest := by
        rw [heq]
        simp [optionalField]
      exact absurd hin (hr _)
  | some value =>
    cases second with
    | none =>
      have hin : (key, toJson value) ∈ optionalField key toJson none ++ other := by
        rw [← heq]
        simp [optionalField]
      exact absurd hin (ho _)
    | some =>
      simp only [optionalField, singleton_append, cons.injEq, Prod.mk.injEq, true_and] at heq
      exact ⟨congrArg some (hi heq.1), heq.2⟩

theorem optionalField_injective (hi : Injective toJson) : Injective (optionalField key toJson) := by
  intro first second heq
  have ha : optionalField key toJson first ++ [] = optionalField key toJson second ++ [] := by
    rw [heq]
  exact (optionalField_append hi (by simp) (by simp) ha).1

theorem str_injective : Injective (JsonValue.Str (ν := Empty)) :=
  fun _ _ heq => Str.inj heq

theorem not_mem_optionalField (toJson : α → JsonValue Empty) (value : Option α) (hne : name ≠ key)
    (json : JsonValue Empty) : (name, json) ∉ optionalField key toJson value :=
  fun hm => hne (mem_optionalField hm)

theorem uv_toJson_injective : Injective UvInlineMetadata.toJson := by
  intro first second heq
  obtain ⟨hd, hr⟩ := cons.inj (Object.inj heq)
  have hd := strings_injective (Prod.mk.inj hd).2
  obtain ⟨_, hr⟩ := optionalField_append str_injective
    (not_mem_optionalField _ _ (by decide)) (not_mem_optionalField _ _ (by decide)) hr
  have hp := optionalField_injective str_injective hr
  cases first
  cases second
  simp_all

theorem conda_toJson_injective : Injective CondaInlineMetadata.toJson := by
  intro first second heq
  obtain ⟨hd, hr⟩ := cons.inj (Object.inj heq)
  obtain ⟨hc, hr⟩ := cons.inj hr
  have hd := strings_injective (Prod.mk.inj hd).2
  have hc := strings_injective (Prod.mk.inj hc).2
  have hp := optionalField_injective str_injective hr
  cases first
  cases second
  simp_all

theorem pixi_toJson_injective : Injective PixiInlineMetadata.toJson := by
  intro first second heq
  obtain ⟨hd, hr⟩ := cons.inj (Object.inj heq)
  obtain ⟨hp, hr⟩ := cons.inj hr
  obtain ⟨hc, hr⟩ := cons.inj hr
  have hd := strings_injective (Prod.mk.inj hd).2
  have hp := strings_injective (Prod.mk.inj hp).2
  have hc := strings_injective (Prod.mk.inj hc).2
  have hpython := optionalField_injective str_injective hr
  cases first
  cases second
  simp_all

theorem signable_inj {first second : RuntMetadata ν} (heq : signable first = signable second) :
    (first.uv, first.conda, first.pixi) = (second.uv, second.conda, second.pixi) := by
  unfold signable at heq
  rw [append_assoc, append_assoc] at heq
  have ho : ∀ (runt : RuntMetadata ν) json, ("uv", json) ∉
      optionalField "conda" CondaInlineMetadata.toJson runt.conda ++
        optionalField "pixi" PixiInlineMetadata.toJson runt.pixi := by
    intro runt json hm
    rcases mem_append.mp hm with hm | hm <;> exact absurd (mem_optionalField hm) (by decide)
  obtain ⟨huv, hr⟩ := optionalField_append uv_toJson_injective (ho first) (ho second) heq
  obtain ⟨hc, hr⟩ := optionalField_append conda_toJson_injective
    (not_mem_optionalField _ _ (by decide)) (not_mem_optionalField _ _ (by decide)) hr
  have hp := optionalField_injective pixi_toJson_injective hr
  rw [huv, hc, hp]

theorem assembleSnapshot_runt :
    ((assembleSnapshot kernelspec languageInfo runt extras).map MetadataSnapshot.runt).getD .default =
      runt.getD .default := by
  unfold assembleSnapshot
  split
  · rfl
  · rename_i hn
    simp only [Bool.or_eq_true, not_or, not_isSome_iff_eq_none] at hn
    rw [hn.1.2]
    rfl

theorem sections_historical (reading : Reading η ν K L) (state : Node ν) :
    sectionsOf (((getMetadataSnapshotAtHeads reading state).map MetadataSnapshot.runt).getD
      .default) = sections reading state := by
  unfold getMetadataSnapshotAtHeads sections
  cases metadataMap state with
  | none => rfl
  | some =>
    simp only [bind_eq_bind, bind_some]
    rw [assembleSnapshot_runt]

theorem sections_current (reading : Reading η ν K L) (state : Node ν) :
    sectionsOf (((getMetadataSnapshot reading state).map MetadataSnapshot.runt).getD .default) =
      sections reading state := by
  unfold getMetadataSnapshot sections
  cases metadataMap state with
  | none => rfl
  | some metadata =>
    simp only [bind_eq_bind, bind_some]
    rw [assembleSnapshot_runt]
    cases getPyodideManifest metadata with
    | none | some => rfl

theorem fingerprint_runt {first second : Option (MetadataSnapshot ν K L)}
    (heq : first.map MetadataSnapshot.dependencyFingerprint =
      second.map MetadataSnapshot.dependencyFingerprint) :
    sectionsOf ((first.map MetadataSnapshot.runt).getD .default) =
      sectionsOf ((second.map MetadataSnapshot.runt).getD .default) := by
  cases first with
  | none =>
    cases second with
    | none => rfl
    | some => cases heq
  | some =>
    cases second with
    | none => cases heq
    | some =>
      have hf := Object.inj (JsonPrint.text_injective (some.inj heq))
      exact signable_inj hf

theorem dependencyFingerprint_inj
    (heq : dependencyFingerprint first deps = dependencyFingerprint second other) :
    first = second ∧ deps.mapError Pep723Error.toString = other.mapError Pep723Error.toString := by
  have hi := Array.inj (JsonPrint.text_injective heq)
  obtain ⟨_, hp⟩ := cons.inj hi
  have hp := (cons.inj hp).1
  constructor
  · cases first <;> cases second <;> simp_all
  · cases deps with
    | ok =>
      cases other with
      | ok =>
        have hl := (cons.inj (Object.inj hp)).1
        rw [strings_injective (Prod.mk.inj hl).2]
      | error => simp at hp
    | error error =>
      cases other with
      | ok => simp at hp
      | error =>
        have ht := (cons.inj (Object.inj hp)).1
        simp [Except.mapError, Str.inj (Prod.mk.inj ht).2]

theorem parseHeads_ne_nil (hh : parseHeads reading observed = .ok heads)
    (hs : observed ≠ []) : heads ≠ [] := by
  cases observed with
  | nil => exact absurd rfl hs
  | cons head =>
    rw [parseHeads, mapM_cons] at hh
    rintro rfl
    cases hf : reading.changeHash head with
    | none =>
      rw [hf] at hh
      cases hh
    | some =>
      rw [hf] at hh
      simp only [bind, Except.bind] at hh
      split at hh
      · cases hh
      · cases hh

theorem validateRunAll_ok (hh : parseHeads reading observed = .ok heads) :
    validateRunAll reading doc observed = .ok () ↔ observed ≠ [] ∧
      codeCellGuardSnapshots (doc.stateAt heads) = codeCellGuardSnapshots doc.now := by
  unfold validateRunAll
  split
  · rename_i he
    simp [he]
  · rename_i he
    simp only [hh, bind, Except.bind]
    split <;> simp_all [pure, Except.pure, throw, throwThe, MonadExceptOf.throw]

theorem validateSyncEnvironment_ok (hh : parseHeads reading observed = .ok heads) :
    validateSyncEnvironment reading doc observed = .ok () ↔
      dependencyFingerprintAtObservedHeads reading doc heads =
        .ok (currentDependencyFingerprint reading doc) := by
  simp only [validateSyncEnvironment, hh, bind, Except.bind]
  cases dependencyFingerprintAtObservedHeads reading doc heads with
  | error => simp
  | ok reviewed =>
    dsimp only
    split <;> simp_all [pure, Except.pure, throw, throwThe, MonadExceptOf.throw, eq_comm]

theorem dependencies_same (reading : Reading η ν K L) (doc : Document η ν) (heads : List η)
    (ha : dependencyFingerprintAtObservedHeads reading doc heads =
      .ok (currentDependencyFingerprint reading doc)) :
    sections reading (doc.stateAt heads) = sections reading doc.now ∧
      (pep723DependenciesFromCells reading (getCells (doc.stateAt heads))).mapError
          Pep723Error.toString =
        (pep723DependenciesFromCells reading (getCells doc.now)).mapError Pep723Error.toString := by
  unfold dependencyFingerprintAtObservedHeads at ha
  split at ha
  · cases ha
  · obtain ⟨hm, hp⟩ := dependencyFingerprint_inj (Except.ok.inj ha)
    refine ⟨?_, hp⟩
    rw [← sections_historical reading (doc.stateAt heads), ← sections_current reading doc.now]
    exact fingerprint_runt hm

theorem stateAt_unknown {doc : Document η ν}
    (hu : ∀ head ∈ heads, doc.contains head = false) : doc.stateAt heads = .Map [] := by
  have hn : heads.filter doc.contains = [] := by
    rw [filter_eq_nil_iff]
    intro head hh
    rw [hu head hh]
    decide
  rw [doc.stateAt_known, hn, doc.stateAt_nil]

variable [DecidableEq η]

theorem keeps_diffDoc (doc : Document η ν) {observed : List η} (hs : observed ≠ [])
    (hc : cellChanged (diffFromObservedHeads doc observed).cells cellId = false) :
    Keeps (doc.stateAt observed) doc.now cellId := by
  unfold diffFromObservedHeads diffDoc at hc
  rw [if_neg hs] at hc
  split at hc
  · rename_i hsame
    rw [hsame]
    exact .refl _ _
  · refine keeps_applyAll (doc.diff_exact observed doc.heads) fun patch hp touch ht hflags => ?_
    have hf : Flagged ((doc.diff observed doc.heads).foldl Walk.step {}) cellId :=
      flagged_foldl (Or.inr ⟨patch, hp, touch, ht, hflags⟩)
    have hr := cellChanged_finish hf
    rw [classifyPatches, hr] at hc
    cases hc

theorem validateExecuteCell_ok {heads : List η} (hh : parseHeads reading observed = .ok heads) :
    validateExecuteCell reading doc cellId observed = .ok () ↔
      observed ≠ [] ∧ cellChanged (diffFromObservedHeads doc heads).cells cellId = false := by
  by_cases he : observed = []
  · simp [validateExecuteCell, diffFromObserved, he, bind, Except.bind]
  · have hd : diffFromObserved reading doc observed = .ok (diffFromObservedHeads doc heads) := by
      simp [diffFromObserved, he, hh, bind, Except.bind, pure, Except.pure]
    simp only [validateExecuteCell, hd, bind, Except.bind]
    split <;> simp_all [pure, Except.pure, throw, throwThe, MonadExceptOf.throw]

theorem validateExecuteCell_keeps {heads : List η} (hh : parseHeads reading observed = .ok heads)
    (ha : validateExecuteCell reading doc cellId observed = .ok ()) :
    Keeps (doc.stateAt heads) doc.now cellId := by
  obtain ⟨he, hc⟩ := (validateExecuteCell_ok hh).mp ha
  exact keeps_diffDoc doc (parseHeads_ne_nil hh he) hc

theorem validate_error (doc : Document η ν) (hh : parseHeads reading observed = .error reason)
    (cellId : String) :
    validateExecuteCell reading doc cellId observed ≠ .ok () ∧
      validateRunAll reading doc observed ≠ .ok () ∧
        validateSyncEnvironment reading doc observed ≠ .ok () := by
  refine ⟨?_, ?_, ?_⟩
  · unfold validateExecuteCell diffFromObserved
    split <;> simp [hh, bind, Except.bind]
  · unfold validateRunAll
    split <;> simp [hh, bind, Except.bind]
  · simp [validateSyncEnvironment, hh, bind, Except.bind]

-- What a guard accepts was reviewed, exactly where the change is reported or all heads are known
-- and the cell is there. Heads that are all unknown are rejected, unless there is nothing to act on.
theorem guards_accept_reviewed (reading : Reading η ν K L) (doc : Document η ν)
    (observed : List String) :
    (∀ reason, parseHeads reading observed = .error reason → ∀ cellId,
      validateExecuteCell reading doc cellId observed ≠ .ok () ∧
        validateRunAll reading doc observed ≠ .ok () ∧
          validateSyncEnvironment reading doc observed ≠ .ok ()) ∧
    ∀ heads, parseHeads reading observed = .ok heads →
      let known := ∀ head ∈ heads, doc.contains head = true
      (∀ cellId,
        (validateExecuteCell reading doc cellId observed = .ok () → known ∧
          ∃ reviewed cell, cellObj (doc.stateAt heads) cellId = some reviewed ∧
            cellObj doc.now cellId = some cell ∧
            cellTypeOf cell = cellTypeOf reviewed ∧ sourceOf cell = sourceOf reviewed) ↔
        (observed = [] ∨ cellChanged (diffFromObservedHeads doc heads).cells cellId = true ∨
          known ∧ (cellObj doc.now cellId).isSome)) ∧
      ((validateRunAll reading doc observed = .ok () → known ∧
          codeCellGuardSnapshots (doc.stateAt heads) = codeCellGuardSnapshots doc.now) ↔
        (observed = [] ∨
          codeCellGuardSnapshots (doc.stateAt heads) ≠ codeCellGuardSnapshots doc.now ∨ known)) ∧
      ((validateSyncEnvironment reading doc observed = .ok () → known ∧
          sections reading (doc.stateAt heads) = sections reading doc.now ∧
          (pep723DependenciesFromCells reading (getCells (doc.stateAt heads))).mapError
              Pep723Error.toString =
            (pep723DependenciesFromCells reading (getCells doc.now)).mapError
              Pep723Error.toString) ↔
        (dependencyFingerprintAtObservedHeads reading doc heads ≠
          .ok (currentDependencyFingerprint reading doc) ∨ known)) ∧
      ((∀ head ∈ heads, doc.contains head = false) →
        (∀ cellId cell, cellObj doc.now cellId = some cell →
          validateExecuteCell reading doc cellId observed ≠ .ok ()) ∧
        (codeCellGuardSnapshots doc.now ≠ [] → validateRunAll reading doc observed ≠ .ok ()) ∧
        (sections reading doc.now ≠ (none, none, none) ∨
            (pep723DependenciesFromCells reading (getCells doc.now)).mapError
              Pep723Error.toString ≠ .ok [] →
          validateSyncEnvironment reading doc observed ≠ .ok ())) := by
  refine ⟨fun reason hheads => validate_error doc hheads, fun heads hheads => ?_⟩
  refine ⟨fun cellId => ⟨fun hsound => ?_, ?_⟩, ?_, ?_, fun hunknown => ?_⟩
  · rw [or_iff_not_imp_left, or_iff_not_imp_left]
    intro he hc
    obtain ⟨hknown, _, cell, -, hcell, -⟩ :=
      hsound ((validateExecuteCell_ok hheads).mpr ⟨he, Bool.eq_false_iff.mpr hc⟩)
    exact ⟨hknown, by rw [hcell]; rfl⟩
  · intro hcase haccept
    obtain ⟨he, hc⟩ := (validateExecuteCell_ok hheads).mp haccept
    rcases hcase with hn | hchanged | ⟨hknown, hsome⟩
    · exact absurd hn he
    · rw [hc] at hchanged
      cases hchanged
    · obtain ⟨cell, hcell⟩ := Option.isSome_iff_exists.mp hsome
      obtain ⟨reviewed, hreviewed, hsame⟩ :=
        validateExecuteCell_keeps hheads haccept cell hcell
      exact ⟨hknown, reviewed, cell, hreviewed, hcell, hsame⟩
  · rw [validateRunAll_ok hheads]
    tauto
  · rw [validateSyncEnvironment_ok hheads]
    have hsame := dependencies_same reading doc heads
    tauto
  have hempty := stateAt_unknown hunknown
  refine ⟨?_, ?_, ?_⟩
  · intro cellId cell hcell haccept
    obtain ⟨_, hreviewed, -⟩ := validateExecuteCell_keeps hheads haccept cell hcell
    rw [hempty] at hreviewed
    cases hreviewed
  · intro hsome haccept
    have hsame := ((validateRunAll_ok hheads).mp haccept).2
    rw [hempty] at hsame
    exact hsome hsame.symm
  · intro hsome haccept
    obtain ⟨hsections, hpep⟩ :=
      dependencies_same reading doc heads ((validateSyncEnvironment_ok hheads).mp haccept)
    rw [hempty] at hsections hpep
    rcases hsome with hsome | hsome
    · exact hsome hsections.symm
    · exact hsome hpep.symm

-- A document with one change, which puts the cells map; `build` are its patches.
def oneChange (cells : Node Empty) (build : List (Patch Empty))
    (hbuild : applyAll build (.Map []) = some (.Map [("cells", cells)])) : Document Nat Empty where
  contains := fun head => head = 1
  heads := [1]
  stateAt := fun heads => if 1 ∈ heads then .Map [("cells", cells)] else .Map []
  diff := fun before after =>
    if 1 ∈ before then
      if 1 ∈ after then [] else [⟨[], .DeleteMap "cells"⟩]
    else
      if 1 ∈ after then build else []
  stateAt_known := by
    intro heads
    simp
  stateAt_nil := rfl
  diff_exact := by
    intro before after
    by_cases hbefore : 1 ∈ before <;> by_cases hafter : 1 ∈ after
    · simp [hbefore, hafter, applyAll]
    · simp [hbefore, hafter, applyAll, Patch.apply, Node.modifyAt, PatchAction.apply, removeEntry]
    · simp [hbefore, hafter, hbuild]
    · simp [hbefore, hafter, applyAll]

def codeCell : Node Empty :=
  .Map [("id", .Leaf (.Str "c")), ("cell_type", .Leaf (.Str "code")), ("source", .Text ['x'])]

def codeDoc : Document Nat Empty :=
  oneChange (.Map [("c", codeCell)])
    [⟨[], .PutMap "cells" .Map false⟩, ⟨[.Map "cells"], .PutMap "c" .Map false⟩,
      ⟨[.Map "cells", .Map "c"], .PutMap "id" (.Leaf (.Str "c")) false⟩,
      ⟨[.Map "cells", .Map "c"], .PutMap "cell_type" (.Leaf (.Str "code")) false⟩,
      ⟨[.Map "cells", .Map "c"], .PutMap "source" .Text false⟩,
      ⟨[.Map "cells", .Map "c", .Map "source"], .SpliceText 0 ['x']⟩] rfl

def emptyDoc : Document Nat Empty :=
  oneChange (.Map []) [⟨[], .PutMap "cells" .Map false⟩] rfl

def plainReading : Reading Nat Empty Unit Unit where
  kernelspec := fun _ => none
  languageInfo := fun _ => none
  runt := fun _ => none
  parsePep723 := fun _ => .ok none
  changeHash := fun text => if text = "1" then some 1 else if text = "2" then some 2 else none

theorem reviewed_cell_runs :
    validateExecuteCell plainReading codeDoc "c" ["1"] = .ok () ∧
      (∃ reviewed, cellObj (codeDoc.stateAt [1]) "c" = some reviewed ∧
        sourceOf reviewed = sourceOf codeCell) ∧
      validateExecuteCell plainReading codeDoc "c" ["2"] ≠ .ok () := by
  have ha : validateExecuteCell plainReading codeDoc "c" ["1"] = .ok () := rfl
  have hc : cellObj codeDoc.now "c" = some codeCell := rfl
  have hk := (guards_accept_reviewed plainReading codeDoc ["1"]).2 [1] rfl
  have hu := (guards_accept_reviewed plainReading codeDoc ["2"]).2 [2] rfl
  obtain ⟨-, reviewed, cell, hr, hnow, -, hs⟩ :=
    (hk.1 "c").mpr (.inr (.inr ⟨by decide, rfl⟩)) ha
  cases hc.symm.trans hnow
  refine ⟨ha, ⟨reviewed, hr, hs.symm⟩, ?_⟩
  exact (hu.2.2.2 (by decide)).1 "c" codeCell hc

-- An unknown head beside a known one and a cell that never was are accepted.
theorem unknown_heads_accepted :
    (codeDoc.contains 2 = false ∧ parseHeads plainReading ["1", "2"] = .ok [1, 2] ∧
      validateExecuteCell plainReading codeDoc "c" ["1", "2"] = .ok () ∧
      validateRunAll plainReading codeDoc ["1", "2"] = .ok () ∧
      validateSyncEnvironment plainReading codeDoc ["1", "2"] = .ok ()) ∧
    (emptyDoc.contains 2 = false ∧ validateRunAll plainReading emptyDoc ["2"] = .ok ()) ∧
    (cellObj (codeDoc.stateAt [1]) "ghost" = none ∧
      validateExecuteCell plainReading codeDoc "ghost" ["1"] = .ok ()) := by
  refine ⟨⟨rfl, rfl, rfl, rfl, ?_⟩, ⟨rfl, rfl⟩, rfl, rfl⟩
  rfl

end Nteract.Guarded
