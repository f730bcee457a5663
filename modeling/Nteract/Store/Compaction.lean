import Nteract.Store.Calls

namespace Nteract.Store

open Lib Lib.Bytes Recovery

variable {Key : Type} (backend : Backend Key)

-- The chunks may differ, but not in the queued changes, which a commit still asks for.
inductive Alike : View → View → Prop
  | Absent : Alike .Absent .Absent
  | Broken : Alike .Broken .Broken
  | Stored (sequence : Nat) (applicationState : Bytes) (first second : Image)
      (total : first.total = second.total)
      (queued : ∀ change, change ∉ backend.getChanges first.total →
        (change ∈ first.pending ↔ change ∈ second.pending)) :
      Alike (.Stored sequence applicationState first) (.Stored sequence applicationState second)

variable {backend} {documentId : DocumentId}

theorem Alike.refl (view : View) : Alike backend view view := by
  cases view with
  | Absent => exact .Absent
  | Broken => exact .Broken
  | Stored => exact .Stored _ _ _ _ rfl fun _ _ => Iff.rfl

theorem Alike.symm (ha : Alike backend first second) : Alike backend second first := by
  cases ha with
  | Absent => exact .Absent
  | Broken => exact .Broken
  | Stored _ _ _ _ ht hq =>
    exact .Stored _ _ _ _ ht.symm fun change hc => (hq change (ht ▸ hc)).symm

theorem Alike.trans (ha : Alike backend first second) (hb : Alike backend second third) :
    Alike backend first third := by
  cases ha with
  | Absent | Broken => exact hb
  | Stored _ _ _ _ ht hq =>
    cases hb with
    | Stored _ _ _ _ hu hr =>
      exact .Stored _ _ _ _ (ht.trans hu) fun change hc =>
        (hq change hc).trans (hr change (ht ▸ hc))

theorem missing_alike (ht : image.total = other.total)
    (hq : ∀ change, change ∉ backend.getChanges image.total → (change ∈ image.pending ↔ change ∈
      other.pending)) (changes : List ChangeHash) :
    View.missing backend changes image = View.missing backend changes other := by
  unfold View.missing
  rw [List.filter_filter, List.filter_filter, ← ht]
  refine List.filter_congr fun change _ => ?_
  by_cases ha : change ∈ backend.getChanges image.total
  · simp [ha]
  · simp [hq change ha]

theorem total_pending (image : Image) (added : Finset ChangeHash) :
    ({ image with pending := image.pending ∪ added } : Image).total = image.total ∪ added :=
  (Finset.union_assoc _ _ _).symm

theorem alike_commit (faults : Faults) (request : CommitRequest) (ha : Alike backend first second) :
    Alike backend (first.settle (View.commit backend faults request first))
      (second.settle (View.commit backend faults request second)) := by
  cases ha with
  | Absent | Broken => exact .refl _
  | Stored sequence applicationState image other ht hq =>
    have hs : Alike backend (.Stored sequence applicationState image)
      (.Stored sequence applicationState other) := .Stored _ _ _ _ ht hq
    simp only [View.commit, ← ht, ← missing_alike ht hq request.changes]
    cases faults.start with
    | some => exact hs
    | none =>
      split
      · exact hs
      · cases hap : backend.applyChanges image.total
            (View.missing backend request.changes image).toFinset with
        | error error => exact hs
        | ok document =>
          cases (nextSequence request.documentId sequence : Except (StoreError Key) Nat) with
          | error error => exact hs
          | ok next =>
            cases faults.finish with
            | some => exact hs
            | none =>
              refine .Stored _ _ _ _ ?_ fun change ho => ?_
              · rw [total_pending, total_pending, ht]
              · have hqueued : change ∉ backend.getChanges image.total := by
                  intro happlied
                  refine ho (Automerge.getChanges_mono ?_ happlied)
                  rw [total_pending]
                  exact Finset.subset_union_left
                simp [hq change hqueued]

theorem alike_installSnapshot (faults : Faults) (snapshot : Bytes) (heads : List ChangeHash)
    (applicationState : Bytes) (ha : Alike backend first second) :
    Alike backend (first.settle
        (View.installSnapshot backend faults documentId snapshot heads applicationState first))
      (second.settle
        (View.installSnapshot backend faults documentId snapshot heads applicationState second)) := by
  cases ha with
  | Absent | Broken => exact .refl _
  | Stored sequence state image _ ht hq =>
    -- a document that is there is never replaced
    have hk : ∀ image : Image, (View.Stored sequence state image).settle
        (View.installSnapshot backend faults documentId snapshot heads applicationState
          (.Stored sequence state image)) = .Stored sequence state image := by
      intro image
      unfold View.installSnapshot
      cases backend.load snapshot with
      | error => rfl
      | ok =>
        simp only [Except.mapError, bind, Except.bind]
        split
        · rfl
        · cases faults.start with
          | some => rfl
          | none =>
            simp only [sqlite]
            split <;> rfl
    rw [hk, hk]
    exact .Stored _ _ _ _ ht hq

theorem alike_compact_self (faults : Faults) (documentId : DocumentId) (view : View) :
    Alike backend view (view.settle (View.compact backend faults documentId view)) := by
  unfold View.compact
  cases faults.start with
  | some => exact .refl _
  | none =>
    cases view with
    | Absent | Broken => exact .refl _
    | Stored _ _ image =>
      by_cases hd : backend.getMissingDeps image.total [] = []
      · simp only [if_neg (not_not_intro hd)]
        cases faults.finish with
        | some => exact .refl _
        | none =>
          have hc := (Automerge.getMissingDeps_eq_nil backend.acyclic).mp hd
          refine .Stored _ _ _ _ (Finset.union_empty _).symm fun change ho => ?_
          rw [hc] at ho
          have hp : change ∉ image.pending := fun hp => ho (Finset.mem_union_right _ hp)
          simp [hp, View.compacted]
      · simp only [if_pos hd]
        exact .refl _

theorem alike_perform (call : StoreCall) (ha : Alike backend first second) :
    Alike backend (View.perform backend documentId first call)
      (View.perform backend documentId second call) := by
  obtain ⟨op, _⟩ := call
  cases op with
  | InstallSnapshot =>
    simp only [View.perform]
    split
    · exact alike_installSnapshot _ _ _ _ ha
    · exact ha
  | Commit =>
    simp only [View.perform]
    split
    · exact alike_commit _ _ ha
    · exact ha
  | Compact =>
    simp only [View.perform]
    split
    · exact (alike_compact_self _ _ _).symm.trans (ha.trans (alike_compact_self _ _ _))
    · exact ha

theorem alike_performAll (calls : List StoreCall) (ha : Alike backend first second) :
    Alike backend (calls.foldl (View.perform backend documentId) first)
      (calls.foldl (View.perform backend documentId) second) := by
  induction calls generalizing first second with
  | nil => exact ha
  | cons call _ ih => exact ih (alike_perform call ha)

-- A compaction, and a call for another document, leave what the document loads as.
def concerns (documentId : DocumentId) (call : StoreCall) : Bool :=
  match call.op with
  | .InstallSnapshot target .. => target = documentId
  | .Commit request => request.documentId = documentId
  | .Compact _ => false

theorem alike_unconcerned (hc : concerns documentId call = false) (view : View) :
    Alike backend (View.perform backend documentId view call) view := by
  obtain ⟨op, _⟩ := call
  cases op with
  | InstallSnapshot | Commit =>
    have hn := of_decide_eq_false hc
    simp only [View.perform, if_neg hn]
    exact .refl _
  | Compact =>
    simp only [View.perform]
    split
    · exact (alike_compact_self _ _ _).symm
    · exact .refl _

theorem alike_concerned (calls : List StoreCall) (ha : Alike backend first second) :
    Alike backend (calls.foldl (View.perform backend documentId) first)
      ((calls.filter (concerns documentId)).foldl (View.perform backend documentId) second) := by
  induction calls generalizing first second with
  | nil => exact ha
  | cons call _ ih =>
    cases hc : concerns documentId call with
    | false =>
      rw [List.filter_cons_of_neg (by simp [hc])]
      exact ih ((alike_unconcerned hc first).trans ha)
    | true =>
      rw [List.filter_cons_of_pos hc]
      exact ih (alike_perform call ha)

variable [LinearOrder Key] {database : Database Key}

theorem contents_alike (hf : Shows backend database documentId first)
    (hs : Shows backend other documentId second) (ha : Alike backend first second) :
    contents backend database documentId = contents backend other documentId := by
  rw [contents_shows hf, contents_shows hs]
  cases ha with
  | Absent | Broken => rfl
  | Stored _ _ _ _ ht => simp only [ht]

-- No load sees that a document was compacted, now or after any later calls.
theorem compaction_invisible (backend : Backend Key) (calls later : List StoreCall)
    (target documentId : DocumentId) (faults : Faults) :
    let database := performAll backend .empty calls
    let compacted := (perform backend database ⟨.Compact target, faults⟩).2
    contents backend compacted documentId = contents backend database documentId ∧
      load backend compacted documentId = load backend database documentId ∧
      contents backend (performAll backend compacted later) documentId =
        contents backend (performAll backend database later) documentId ∧
      load backend (performAll backend compacted later) documentId =
        load backend (performAll backend database later) documentId := by
  intro database compacted
  have hv := viewed_performAll (viewed_empty backend) calls
  have hc := viewed_perform hv ⟨.Compact target, faults⟩
  have ha : Alike backend
      (View.perform backend documentId (calls.foldl (View.perform backend documentId) .Absent)
        ⟨.Compact target, faults⟩)
      (calls.foldl (View.perform backend documentId) .Absent) := by
    simp only [View.perform]
    split
    · exact (alike_compact_self _ _ _).symm
    · exact .refl _
  have hn : contents backend compacted documentId = contents backend database documentId :=
    contents_alike (hc documentId) (hv documentId) ha
  have hl : contents backend (performAll backend compacted later) documentId =
      contents backend (performAll backend database later) documentId :=
    contents_alike (viewed_performAll hc later documentId) (viewed_performAll hv later documentId)
      (alike_performAll later ha)
  refine ⟨hn, ?_, hl, ?_⟩
  · rw [load_eq_contents, load_eq_contents, hn]
  · rw [load_eq_contents, load_eq_contents, hl]

-- Only its own installs and commits decide what a document loads as.
theorem documents_independent (backend : Backend Key) (calls : List StoreCall)
    (documentId : DocumentId) :
    load backend (performAll backend .empty calls) documentId =
      load backend (performAll backend .empty (calls.filter (concerns documentId)))
        documentId := by
  have hv := viewed_empty backend
  have hc := contents_alike (viewed_performAll hv calls documentId) (viewed_performAll hv _ _)
    (alike_concerned calls (.refl _))
  rw [load_eq_contents, load_eq_contents, hc]

end Nteract.Store
