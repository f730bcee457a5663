import Nteract.Ingest
import Nteract.NotebookDoc.Cells

namespace Nteract.Ingest

open Lib NotebookDoc NotebookDoc.Notebook

variable {P V O : Type} [LinearOrder P]

def Shows (found : Option (Cell P V)) (source : String) (metadata attachments : V) : Prop :=
  ∃ cell, found = some cell ∧ cell.content.source = source ∧ cell.content.metadata = metadata ∧
    cell.content.attachments = attachments

variable {context : IngestContext P V O} {state : Ingested P V O} {place : Nat}
  {cell : ExternalCell V O} {other source : String} {metadata attachments : V}

structure Confined (before after : Notebook P V) (id : String) : Prop where
  other : ∀ other, other ≠ id → after.find other = before.find other
  places : after.places = before.places

theorem Confined.ids {before after : Notebook P V} {id : String} (hc : Confined before after id) :
    after.getCellIds = before.getCellIds := by
  rw [← map_places, hc.places, map_places]

theorem Confined.refl (notebook : Notebook P V) (id : String) : Confined notebook notebook id :=
  ⟨fun _ _ => rfl, rfl⟩

theorem Confined.trans {first middle last : Notebook P V} {id : String}
    (hf : Confined first middle id) (hl : Confined middle last id) : Confined first last id :=
  ⟨fun other ho => (hl.other other ho).trans (hf.other other ho), hl.places.trans hf.places⟩

theorem confined_updateCell (notebook : Notebook P V) (id : String)
    (change : CellContent V → CellContent V) :
    Confined notebook (notebook.updateCell id change) id :=
  ⟨fun _ ho => find_updateCell_other ho, places_updateCell⟩

structure Edits (before after : Notebook P V) (id source next : String) (attachments refs : V) :
    Prop extends Confined before after id where
  shows : ∀ metadata, Shows (before.find id) source metadata attachments →
    Shows (after.find id) next metadata refs

theorem Edits.refl (notebook : Notebook P V) (id source : String) (attachments : V) :
    Edits notebook notebook id source source attachments attachments :=
  ⟨.refl .., fun _ hs => hs⟩

theorem Edits.trans {first middle last : Notebook P V} {id source next final : String}
    (hf : Edits first middle id source next attachments refs)
    (hl : Edits middle last id next final refs kept) :
    Edits first last id source final attachments kept :=
  ⟨hf.toConfined.trans hl.toConfined, fun metadata hs => hl.shows metadata (hf.shows metadata hs)⟩

theorem edits_updateCell {notebook : Notebook P V} {id source next : String}
    (hc : ∀ content, content.source = source → content.attachments = attachments → (change
      content).source = next ∧ (change content).metadata = content.metadata ∧ (change
      content).attachments = refs) :
    Edits notebook (notebook.updateCell id change) id source next attachments refs := by
  refine ⟨confined_updateCell .., ?_⟩
  rintro _ ⟨cell, hf, hs, hm, ha⟩
  obtain ⟨hn, hk, hr⟩ := hc cell.content hs ha
  have hid := (find_eq_some.mp hf).2
  refine ⟨cell.alter id change, by rw [find_updateCell, hf]; rfl, ?_⟩
  rw [Cell.alter, if_pos hid]
  exact ⟨hn, hk.trans hm, hr⟩

theorem edits_setExecutionId (notebook : Notebook P V) (id : String) (executionId : Option String) :
    Edits notebook (notebook.setExecutionId id executionId) id source source attachments
      attachments :=
  edits_updateCell fun _ hs ha => ⟨hs, rfl, ha⟩

theorem addExecution_edits : Edits state.notebook (addExecution context state cell).notebook
    cell.id source source attachments attachments := by
  unfold addExecution
  dsimp only
  split
  · exact edits_setExecutionId ..
  · exact .refl ..

theorem setAssetsAndAttachments_edits :
    Edits state.notebook (setAssetsAndAttachments state cell).notebook cell.id source source
      attachments cell.attachments := by
  have hassets : Edits state.notebook (state.notebook.setCellResolvedAssets cell.id cell.assets)
      cell.id source source attachments attachments :=
    edits_updateCell fun _ hs ha => ⟨hs, rfl, ha⟩
  exact hassets.trans (edits_updateCell fun _ hs _ => ⟨hs, rfl, rfl⟩)

def mergedSource (context : IngestContext P V O) (existing : Cell P V) (cell : ExternalCell V O) :
    String :=
  if isExternalChange context existing cell then cell.source else existing.content.source

section Existing

theorem mergeSource_edits :
    Edits state.notebook (mergeSource context existing state cell).notebook cell.id
      existing.content.source (mergedSource context existing cell) attachments attachments := by
  unfold mergeSource mergedSource
  split
  · exact edits_updateCell fun _ _ ha => ⟨rfl, rfl, ha⟩
  · exact .refl ..

variable [DecidableEq V]

theorem updateAssets_edits : Edits state.notebook (updateAssets existing state cell).notebook
    cell.id source source attachments attachments := by
  unfold updateAssets
  split
  · exact edits_updateCell fun _ hs ha => ⟨hs, rfl, ha⟩
  · exact .refl ..

theorem updateAttachments_edits :
    Edits state.notebook (updateAttachments existing state cell).notebook cell.id source source
      existing.content.attachments cell.attachments := by
  unfold updateAttachments
  split
  case isTrue => exact edits_updateCell fun _ hs _ => ⟨hs, rfl, rfl⟩
  case isFalse hsame =>
    rw [not_not] at hsame
    exact hsame ▸ .refl ..

variable [DecidableEq O]

omit [DecidableEq V] in
theorem updateExecution_edits : Edits state.notebook (updateExecution context state cell).notebook
    cell.id source source attachments attachments := by
  unfold updateExecution
  dsimp only
  split
  · split
    · exact addExecution_edits
    · split <;> exact .refl ..
  · exact .refl ..

theorem updateStep_edits :
    Edits state.notebook (updateStep context existing state cell).notebook cell.id
      existing.content.source (mergedSource context existing cell) existing.content.attachments
      cell.attachments := by
  unfold updateStep
  refine Edits.trans ?_ (updateAssets_edits.trans updateAttachments_edits)
  split
  · exact mergeSource_edits
  · exact mergeSource_edits.trans updateExecution_edits

end Existing

structure Placed (before after : Notebook P V) (place : Nat) (id : String) : Prop where
  other : ∀ other, other ≠ id → after.find other = before.find other
  places : Gap before.places place → id ∉ before.getCellIds → ∃ position,
    after.places = before.places.take place ++ (id, position) :: before.places.drop place ∧
      (∀ other ∈ before.places.take place, other.2 < position) ∧
      ∀ other ∈ before.places.drop place, position < other.2

section Placed

variable {before after : Notebook P V} {id : String} (hp : Placed before after place id)
  (hgap : Gap before.places place) (hid : id ∉ before.getCellIds)

include hp hgap hid

theorem Placed.ids :
    after.getCellIds = before.getCellIds.take place ++ id :: before.getCellIds.drop place := by
  obtain ⟨_, hc, -⟩ := hp.places hgap hid
  rw [← map_places, hc, List.map_append, List.map_cons, List.map_take, List.map_drop, map_places]

theorem Placed.chain {apart : String × P → String × P → Prop}
    (ha : ∀ first second, first.2 < second.2 → apart first second)
    (hc : before.places.IsChain apart) : after.places.IsChain apart := by
  obtain ⟨_, heq, hlow, hhigh⟩ := hp.places hgap hid
  rw [← List.take_append_drop place before.places, List.isChain_append] at hc
  rw [heq, List.isChain_append, List.isChain_cons]
  refine ⟨hc.1, ⟨fun next hn => ha _ next (hhigh next (List.mem_of_mem_head? hn)), hc.2.1⟩,
    fun last hl next hn => ?_⟩
  cases hn
  exact ha last _ (hlow last (List.mem_of_mem_getLast? hl))

end Placed

theorem Placed.confined {first middle last : Notebook P V} {id : String}
    (hp : Placed first middle place id) (hc : Confined middle last id) :
    Placed first last place id :=
  ⟨fun other ho => (hc.other other ho).trans (hp.other other ho),
    fun hg hid => hc.places ▸ hp.places hg hid⟩

variable [EmptyCollection V]

theorem createCell_placed :
    Placed state.notebook (createCell context state place cell).notebook place cell.id := by
  have ha : Placed state.notebook
      (state.notebook.addCell context.index place cell.id cell.cellType) place cell.id :=
    ⟨fun _ ho => find_addCellAfter_other ho, addCell_places context.index place cell.cellType⟩
  exact ha.confined (confined_updateCell ..)

theorem shows_createCell :
    Shows ((createCell context state place cell).notebook.find cell.id) cell.source ∅ ∅ := by
  have he : Edits (state.notebook.addCell context.index place cell.id cell.cellType)
      (createCell context state place cell).notebook cell.id "" cell.source ∅ ∅ :=
    edits_updateCell fun _ _ ha => ⟨rfl, rfl, ha⟩
  exact he.shows ∅ ⟨_, find_addCellAfter, rfl, rfl, rfl⟩

theorem rebuildStep_edits (context : IngestContext P V O) (state : Ingested P V O) (place : Nat)
    (cell : ExternalCell V O) :
    Edits (createCell context state place cell).notebook
      (rebuildStep context state place cell).notebook cell.id cell.source cell.source ∅
      cell.attachments := by
  unfold rebuildStep
  refine Edits.trans (?_ : Edits _ _ cell.id cell.source cell.source ∅ ∅)
    setAssetsAndAttachments_edits
  split
  · split
    · exact edits_setExecutionId ..
    · exact .refl ..
  · exact addExecution_edits

theorem rebuildStep_placed :
    Placed state.notebook (rebuildStep context state place cell).notebook place cell.id :=
  createCell_placed.confined (rebuildStep_edits ..).toConfined

theorem shows_rebuildStep :
    Shows ((rebuildStep context state place cell).notebook.find cell.id) cell.source ∅
      cell.attachments :=
  (rebuildStep_edits ..).shows ∅ shows_createCell

theorem insertedCell_edits (context : IngestContext P V O) (created : Ingested P V O)
    (cell : ExternalCell V O) : Edits created.notebook
      (setAssetsAndAttachments (addExecution context created cell) cell).notebook cell.id
      cell.source cell.source ∅ cell.attachments :=
  addExecution_edits.trans setAssetsAndAttachments_edits

variable [DecidableEq V] [DecidableEq O]

theorem ingestStep_confined (hf : (context.current.find cell.id).isSome) :
    Confined state.notebook (ingestStep context state place cell).notebook cell.id := by
  obtain ⟨_, hf⟩ := Option.isSome_iff_exists.mp hf
  unfold ingestStep
  rw [hf]
  exact updateStep_edits.toConfined

theorem ingestStep_placed (hf : context.current.find cell.id = none) :
    Placed state.notebook (ingestStep context state place cell).notebook place cell.id := by
  unfold ingestStep
  rw [hf]
  exact createCell_placed.confined (insertedCell_edits ..).toConfined

theorem find_ingestStep_other (ho : other ≠ cell.id) :
    (ingestStep context state place cell).notebook.find other = state.notebook.find other := by
  cases hf : context.current.find cell.id with
  | none => exact (ingestStep_placed hf).other other ho
  | some => exact (ingestStep_confined (by rw [hf]; rfl)).other other ho

end Nteract.Ingest
