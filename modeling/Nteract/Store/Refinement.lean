import Nteract.Store.Calls
import Nteract.Store.Reference

namespace Nteract.Store

open Lib Lib.Bytes Recovery Automerge

variable {Key : Type}

-- The changes that succeeded, how many calls persisted, and the last state.
structure History where
  changes : Finset ChangeHash
  sequence : Nat
  applicationState : Bytes

def History.empty : History := ⟨∅, 0, []⟩

def History.extend (known : History) (changes : Finset ChangeHash) (applicationState : Bytes)
    (newlyPersisted : Bool) : History where
  changes := known.changes ∪ changes
  sequence := if newlyPersisted then known.sequence + 1 else known.sequence
  applicationState := if newlyPersisted then applicationState else known.applicationState

def changesIn (backend : Backend Key) (snapshot : Bytes) : Finset ChangeHash :=
  match backend.load snapshot with
  | .ok candidate => candidate
  | .error _ => ∅

def StoreOp.brings (backend : Backend Key) (documentId : DocumentId) :
    StoreOp → Option (Finset ChangeHash × Bytes)
  | .InstallSnapshot target snapshot _ applicationState =>
    if target = documentId then some (changesIn backend snapshot, applicationState) else none
  | .Commit request =>
    if request.documentId = documentId then
      some (request.changes.toFinset, request.applicationState)
    else
      none
  | .Compact _ => none

def record (backend : Backend Key) (documentId : DocumentId) (known : Option History)
    (op : StoreOp) (outcome : Except (StoreError Key) Receipt) : Option History :=
  match op.brings backend documentId, outcome with
  | some (changes, applicationState), .ok (.Commit receipt) =>
    some ((known.getD .empty).extend changes applicationState receipt.newlyPersisted)
  | _, _ => known

-- The snapshots given to install are not empty and hold no queued change.
def StoreOp.Complete (backend : Backend Key) : StoreOp → Prop
  | .InstallSnapshot _ snapshot _ _ => snapshot ≠ [] ∧
      ∀ candidate, backend.load snapshot = .ok candidate →
        backend.getChanges candidate = candidate
  | _ => True

section Changes

variable {backend : Backend Key} {documentId : DocumentId}

theorem total_missing (changes : List ChangeHash) (image : Image) : ({ image with
      pending := image.pending ∪ (View.missing backend changes image).toFinset } : Image).total =
        image.total ∪ changes.toFinset := by
  have ha : ∀ change, change ∈ backend.getChanges image.total → change ∈ image.total :=
    fun change hc => getChanges_subset _ hc
  ext change
  have hc := ha change
  simp only [Image.total, View.missing, Finset.mem_union, List.mem_toFinset, List.mem_filter,
    List.mem_eraseDups] at hc ⊢
  grind

theorem subset_total_of_missing (hm : View.missing backend changes image = []) :
    image.total ∪ changes.toFinset = image.total := by
  have ht := @total_missing _ backend changes image
  rw [hm, List.toFinset_nil, Finset.union_empty] at ht
  exact ht.symm

theorem missing_of_subset (hcomplete : backend.getChanges image.snapshot = image.snapshot)
    (hk : ∀ change ∈ changes, change ∈ image.total) :
    View.missing backend changes image = [] := by
  unfold View.missing
  rw [List.filter_filter, List.filter_eq_nil_iff]
  intro change hc
  rcases Finset.mem_union.mp (hk change (List.mem_eraseDups.mp hc)) with hs | hp
  · have ha : change ∈ backend.getChanges image.total := by
      rw [← hcomplete] at hs
      exact getChanges_mono Finset.subset_union_left hs
    simp [ha]
  · simp [hp]

theorem bind_eq_ok {α β : Type} {action : Except (StoreError Key) α}
    {next : α → Except (StoreError Key) β} {result : β} (hb : action >>= next = .ok result) :
    ∃ value, action = .ok value ∧ next value = .ok result := by
  cases action with
  | error => cases hb
  | ok value => exact ⟨value, rfl, hb⟩

theorem nextSequence_eq_ok
    (hn : nextSequence documentId current = (.ok next : Except (StoreError Key) Nat)) :
    next = current + 1 := by
  unfold nextSequence at hn
  split at hn <;> cases hn
  rfl

theorem record_of_ne (hn : op.target ≠ documentId) (outcome : Except (StoreError Key) Receipt) :
    record backend documentId known op outcome = known := by
  have hb : op.brings backend documentId = none := by
    cases op with
    | Compact => rfl
    | _ => exact if_neg hn
  unfold record
  rw [hb]

-- What an operation that succeeded adds to the changes of a document.
def absorb (backend : Backend Key) (documentId : DocumentId) (changes : Option (Finset ChangeHash))
    (op : StoreOp) : Option (Finset ChangeHash) :=
  match op.brings backend documentId with
  | some (added, _) => some (changes.getD ∅ ∪ added)
  | none => changes

theorem absorb_comm (changes : Option (Finset ChangeHash)) (first second : StoreOp) :
    absorb backend documentId (absorb backend documentId changes first) second =
      absorb backend documentId (absorb backend documentId changes second) first := by
  unfold absorb
  cases first.brings backend documentId with
  | none => cases second.brings backend documentId <;> rfl
  | some =>
    cases second.brings backend documentId with
    | none => rfl
    | some => simp only [Option.getD_some, Finset.union_right_comm]

end Changes

section Runs

variable [LinearOrder Key] (backend : Backend Key)

-- The history of a document along a run, from what the calls returned.
def historyFrom (documentId : DocumentId) (database : Database Key) (known : Option History) :
    List StoreCall → Option History
  | [] => known
  | call :: calls =>
    historyFrom documentId (perform backend database call).2
      (record backend documentId known call.op (perform backend database call).1) calls

def history (documentId : DocumentId) (calls : List StoreCall) : Option History :=
  historyFrom backend documentId .empty none calls

def succeededFrom (database : Database Key) : List StoreCall → List StoreOp
  | [] => []
  | call :: calls =>
    let rest := succeededFrom (perform backend database call).2 calls
    match (perform backend database call).1 with
    | .ok _ => call.op :: rest
    | .error _ => rest

def succeeded (calls : List StoreCall) : List StoreOp := succeededFrom backend .empty calls

-- The changes are those of the chunks, and the snapshot has no queue of its own.
def Tracks (database : Database Key) (documentId : DocumentId) : Option History → Prop
  | none => Shows backend database documentId .Absent
  | some known => ∃ image,
      Shows backend database documentId
        (.Stored known.sequence known.applicationState image) ∧
      image.total = known.changes ∧ backend.getChanges image.snapshot = image.snapshot

variable {backend} {database : Database Key} {documentId : DocumentId} {known : Option History}
  {sequence : Nat}

theorem Tracks.frame (ht : Tracks backend database documentId known) (hn : documentId ≠ target)
    (hf : Frame database after target) : Tracks backend after documentId known := by
  cases known with
  | none =>
    have hs : Shows backend database documentId .Absent := ht
    exact hf.shows hn hs
  | some =>
    obtain ⟨image, hs, hr⟩ := ht
    exact ⟨image, hf.shows hn hs, hr⟩

variable {call : StoreCall}

-- One call on the document itself: the history it leaves, and nothing else touched.
def Advances (backend : Backend Key) (database : Database Key) (documentId : DocumentId)
    (known : Option History) (op : StoreOp)
    (result : Except (StoreError Key) Receipt × Database Key) : Prop :=
  Tracks backend result.2 documentId (record backend documentId known op result.1) ∧
    Frame database result.2 documentId

theorem advances_error (ht : Tracks backend database documentId known) (error : StoreError Key) :
    Advances backend database documentId known op (.error error, database) := by
  have hr : record backend documentId known op (.error error) = known := by
    unfold record
    split
    · rename_i he
      cases he
    · rfl
  exact ⟨by rw [hr]; exact ht, .refl _ _⟩

-- Calls that fail leave everything as it was.
theorem advances_refined {α β : Type} {same : α → β → Prop} {wrap : α → Receipt}
    {call : Except (StoreError Key) (α × Database Key)}
    {expected : Except (StoreError Key) (β × View)}
    (ht : Tracks backend database documentId known)
    (hr : Refines backend same database documentId call expected)
    (hok : ∀ found receipt view after, same found receipt → expected = .ok (receipt, view) → Shows
      backend after documentId view → Tracks backend after documentId (record backend documentId
      known op (.ok (wrap found)))) :
    Advances backend database documentId known op (settle wrap database call) := by
  cases call with
  | error error => exact advances_error ht error
  | ok =>
    cases expected with
    | error => exact hr.elim
    | ok => exact ⟨hok _ _ _ _ hr.1 rfl hr.2.1, hr.2.2⟩

theorem advances_commit (faults : Faults) (request : CommitRequest)
    (ht : Tracks backend database request.documentId known) :
    Advances backend database request.documentId known (.Commit request)
      (settle .Commit database (commit backend faults database request)) := by
  have hb : (StoreOp.Commit request).brings backend request.documentId =
      some (request.changes.toFinset, request.applicationState) := if_pos rfl
  cases known with
  | none =>
    have hs : Shows backend database request.documentId .Absent := ht
    refine advances_refined ht (commit_refines faults request hs) fun _ _ _ _ _ he _ => ?_
    obtain ⟨_, _, he⟩ := bind_eq_ok he
    cases he
  | some known =>
    obtain ⟨image, hs, htotal, hc⟩ := ht
    refine advances_refined ⟨image, hs, htotal, hc⟩ (commit_refines faults request hs) ?_
    rintro _ _ _ _ rfl he hshows
    simp only [record, hb]
    obtain ⟨_, _, he⟩ := bind_eq_ok he
    dsimp only at he
    split at he
    · rename_i hk
      cases he
      refine ⟨image, hshows, ?_, hc⟩
      calc image.total = image.total ∪ request.changes.toFinset :=
            (subset_total_of_missing hk.1).symm
        _ = known.changes ∪ request.changes.toFinset := by rw [htotal]
    · obtain ⟨_, -, he⟩ := bind_eq_ok he
      obtain ⟨_, hn, he⟩ := bind_eq_ok he
      obtain ⟨_, _, he⟩ := bind_eq_ok he
      cases he
      obtain rfl := nextSequence_eq_ok hn
      refine ⟨_, hshows, ?_, hc⟩
      rw [total_missing, htotal]
      rfl

theorem advances_installSnapshot (faults : Faults) {snapshot : Bytes} (heads : List ChangeHash)
    (applicationState : Bytes) (ht : Tracks backend database documentId known)
    (hg : (StoreOp.InstallSnapshot documentId snapshot heads applicationState).Complete backend) :
    Advances backend database documentId known
      (.InstallSnapshot documentId snapshot heads applicationState)
      (settle .Commit database
        (installSnapshot backend faults database documentId snapshot heads applicationState)) := by
  have hbrings : (StoreOp.InstallSnapshot documentId snapshot heads applicationState).brings
      backend documentId = some (changesIn backend snapshot, applicationState) := if_pos rfl
  have hloaded : ∀ {candidate},
      (backend.load snapshot).mapError (@StoreError.InvalidSuppliedSnapshot Key) = .ok candidate →
      changesIn backend snapshot = candidate ∧ backend.getChanges candidate = candidate := by
    intro candidate hload
    cases hl : backend.load snapshot with
    | error =>
      rw [hl] at hload
      cases hload
    | ok =>
      rw [hl] at hload
      cases hload
      exact ⟨by rw [changesIn, hl], hg.2 candidate hl⟩
  cases known with
  | none =>
    have hs : Shows backend database documentId .Absent := ht
    refine advances_refined ht (installSnapshot_refines faults snapshot heads applicationState hs) ?_
    rintro _ receipt view after rfl he hshows
    simp only [record, hbrings]
    obtain ⟨candidate, hload, he⟩ := bind_eq_ok he
    obtain ⟨hchanges, hcomplete⟩ := hloaded hload
    split at he
    · cases he
    obtain ⟨_, _, he⟩ := bind_eq_ok he
    obtain ⟨_, hnext, he⟩ := bind_eq_ok he
    obtain ⟨_, _, he⟩ := bind_eq_ok he
    obtain rfl := nextSequence_eq_ok hnext
    rw [if_neg hg.1] at he
    cases he
    refine ⟨_, hshows, ?_, hcomplete⟩
    rw [hchanges]
    exact (Finset.union_empty _).trans (Finset.empty_union _).symm
  | some known =>
    obtain ⟨image, hs, htotal, hcomplete⟩ := ht
    refine advances_refined ⟨image, hs, htotal, hcomplete⟩
      (installSnapshot_refines faults snapshot heads applicationState hs) ?_
    rintro _ _ _ _ rfl he hshows
    simp only [record, hbrings]
    obtain ⟨candidate, hload, he⟩ := bind_eq_ok he
    obtain ⟨hchanges, hall⟩ := hloaded hload
    split at he
    · cases he
    obtain ⟨_, _, he⟩ := bind_eq_ok he
    dsimp only at he
    split at he
    swap
    · cases he
    rename_i hheads
    cases he
    -- a complete snapshot with the heads of the document brings nothing new
    have hsub : candidate ⊆ known.changes := by
      have happlied := getChanges_eq_of_getHeads_eq hheads.1
      calc candidate = backend.getChanges image.total := (happlied.trans hall).symm
        _ ⊆ image.total := getChanges_subset _
        _ = known.changes := htotal
    refine ⟨image, hshows, htotal.trans ?_, hcomplete⟩
    rw [hchanges]
    exact (Finset.union_eq_left.mpr hsub).symm

theorem advances_compact (faults : Faults) (ht : Tracks backend database documentId known) :
    Advances backend database documentId known (.Compact documentId)
      (settle .Compaction database (compact backend faults database documentId)) := by
  cases known with
  | none =>
    have hs : Shows backend database documentId .Absent := ht
    refine advances_refined ht (compact_refines faults hs) fun _ _ _ _ _ he _ => ?_
    obtain ⟨_, _, he⟩ := bind_eq_ok he
    cases he
  | some known =>
    obtain ⟨image, hs, htotal, hc⟩ := ht
    refine advances_refined ⟨image, hs, htotal, hc⟩ (compact_refines faults hs)
      fun _ _ _ after _ he hshows => ?_
    obtain ⟨_, _, he⟩ := bind_eq_ok he
    dsimp only at he
    split at he
    · cases he
      exact ⟨image, hshows, htotal, hc⟩
    · rename_i hd
      obtain ⟨_, _, he⟩ := bind_eq_ok he
      cases he
      have ha := (getMissingDeps_eq_nil backend.acyclic).mp (not_not.mp hd)
      exact ⟨_, hshows, (Finset.union_empty _).trans htotal, ha⟩

theorem advances_perform (hg : call.op.Complete backend)
    (ht : Tracks backend database call.op.target known) :
    Advances backend database call.op.target known call.op (perform backend database call) := by
  obtain ⟨op, faults⟩ := call
  cases op with
  | InstallSnapshot _ _ heads applicationState =>
    exact advances_installSnapshot faults heads applicationState ht hg
  | Commit request => exact advances_commit faults request ht
  | Compact => exact advances_compact faults ht

theorem tracks_perform {histories : DocumentId → Option History} (hg : call.op.Complete backend)
    (ht : ∀ documentId, Tracks backend database documentId (histories documentId))
    (documentId : DocumentId) : Tracks backend (perform backend database call).2 documentId
      (record backend documentId (histories documentId) call.op
        (perform backend database call).1) := by
  obtain ⟨ha, hf⟩ := advances_perform hg (ht call.op.target)
  by_cases hn : call.op.target = documentId
  · subst hn
    exact ha
  · rw [record_of_ne hn]
    exact (ht documentId).frame (Ne.symm hn) hf

theorem tracks_performAll {hi : DocumentId → Option History} (calls : List StoreCall)
    (hg : ∀ call ∈ calls, call.op.Complete backend)
    (ht : ∀ documentId, Tracks backend database documentId (hi documentId))
    (documentId : DocumentId) :
    Tracks backend (performAll backend database calls) documentId
      (historyFrom backend documentId database (hi documentId) calls) := by
  induction calls generalizing database hi with
  | nil => exact ht documentId
  | cons _ _ ih =>
    rw [List.forall_mem_cons] at hg
    exact ih hg.2 (fun other => tracks_perform hg.1 ht other)

theorem tracks_history (hg : ∀ call ∈ calls, call.op.Complete backend) (documentId : DocumentId) :
    Tracks backend (performAll backend .empty calls) documentId
      (history backend documentId calls) := by
  have hs : ∀ other, Tracks backend (.empty : Database Key) other none :=
    fun other => viewed_empty backend other
  exact tracks_performAll calls hg hs documentId

theorem load_tracks (ht : Tracks backend database documentId known) :
    load backend database documentId = .ok (known.map fun known =>
      ⟨backend.save known.changes, backend.getHeads known.changes, known.applicationState,
        known.sequence⟩) := by
  rw [load_eq_contents]
  cases known with
  | none =>
    have hs : Shows backend database documentId .Absent := ht
    rw [contents_shows hs]
    rfl
  | some =>
    obtain ⟨_, hs, htotal, _⟩ := ht
    rw [contents_shows hs]
    simp only [htotal]
    rfl

theorem perform_brings (hb : (call.op.brings backend documentId).isSome)
    (ho : (perform backend database call).1 = .ok receipt) :
    ∃ committed, receipt = .Commit committed := by
  have hs : ∀ result : Except (StoreError Key) (CommitReceipt × Database Key),
      (settle Receipt.Commit database result).1 = .ok receipt →
        ∃ committed, receipt = .Commit committed := by
    intro result hr
    cases result with
    | error => cases hr
    | ok result =>
      obtain ⟨committed, _⟩ := result
      exact ⟨committed, (Except.ok.inj hr).symm⟩
  obtain ⟨op, _⟩ := call
  cases op with
  | Compact => cases hb
  | _ => exact hs _ ho

theorem changes_record (call : StoreCall) :
    (record backend documentId known call.op (perform backend database call).1).map
        History.changes =
      match (perform backend database call).1 with
      | .ok _ => absorb backend documentId (known.map History.changes) call.op
      | .error _ => known.map History.changes := by
  unfold record absorb
  cases ho : (perform backend database call).1 with
  | error =>
    cases call.op.brings backend documentId with
    | none | some => rfl
  | ok =>
    cases hb : call.op.brings backend documentId with
    | none => rfl
    | some =>
      have hs : (call.op.brings backend documentId).isSome := by rw [hb]; rfl
      obtain ⟨_, rfl⟩ := perform_brings hs ho
      cases known <;> rfl

theorem changes_historyFrom (calls : List StoreCall) (database : Database Key)
    (known : Option History) :
    (historyFrom backend documentId database known calls).map History.changes =
      (succeededFrom backend database calls).foldl (absorb backend documentId)
        (known.map History.changes) := by
  induction calls generalizing database known with
  | nil => rfl
  | cons call _ ih =>
    rw [historyFrom, ih, changes_record, succeededFrom]
    cases (perform backend database call).1 with
    | error | ok => rfl

-- A commit that brings nothing new writes no chunk.
theorem commit_known (faults : Faults)
    (hs : Shows backend database request.documentId (.Stored sequence applicationState image))
    (hm : View.missing backend request.changes image = [])
    (hc : commit backend faults database request = .ok (receipt, after)) :
    after.chunks = database.chunks ∧ (applicationState = request.applicationState →
        after = database ∧ receipt.newlyPersisted = false) := by
  obtain ⟨sourceChunks, hl, hsource⟩ := loadInstalled_stored hs
  have hmissing := missingChanges_eq ⟨image.total, backend.getHeads image.total,
    applicationState, sequence, sourceChunks⟩ hs.2.1 rfl hsource request.changes
  unfold commit at hc
  cases hstart : faults.start with
  | some =>
    rw [hstart] at hc
    cases hc
  | none =>
    rw [hstart, hl] at hc
    simp only [sqlite, bind, Except.bind, hmissing, hm, true_and] at hc
    by_cases hstate : applicationState = request.applicationState
    · rw [if_pos hstate] at hc
      cases hc
      exact ⟨rfl, fun _ => ⟨rfl, rfl⟩⟩
    · rw [if_neg hstate, List.toFinset_nil, applyChanges_of_subset (Finset.empty_subset _)] at hc
      refine ⟨?_, fun h => absurd h hstate⟩
      simp only [Except.mapError] at hc
      split at hc
      · cases hc
      · split at hc
        · cases hc
        · cases hc
          rfl

theorem perform_error (he : (perform backend database call).1 = .error error) :
    (perform backend database call).2 = database := by
  have hs : ∀ {α : Type} (wrap : α → Receipt) (result : Except (StoreError Key) (α × Database Key)),
      (settle wrap database result).1 = .error error → (settle wrap database result).2 = database := by
    intro α wrap result hr
    cases result with
    | error => rfl
    | ok => cases hr
  obtain ⟨op, _⟩ := call
  cases op with
  | _ => exact hs _ _ he

theorem recommit_known (faults : Faults) {known : History}
    (ht : Tracks backend database request.documentId (some known))
    (hk : ∀ change ∈ request.changes, change ∈ known.changes) :
    (perform backend database ⟨.Commit request, faults⟩).2.chunks = database.chunks ∧
      (known.applicationState = request.applicationState →
        (perform backend database ⟨.Commit request, faults⟩).2 = database ∧
          ∀ receipt, (perform backend database ⟨.Commit request, faults⟩).1 =
            .ok (.Commit receipt) → receipt.newlyPersisted = false) := by
  obtain ⟨image, hs, htotal, hcomplete⟩ := ht
  have hm : View.missing backend request.changes image = [] :=
    missing_of_subset hcomplete (htotal ▸ hk)
  unfold perform
  simp only
  cases hc : commit backend faults database request with
  | error => exact ⟨rfl, fun _ => ⟨rfl, nofun⟩⟩
  | ok result =>
    obtain ⟨hchunks, hsame⟩ := commit_known faults hs hm hc
    refine ⟨hchunks, fun hstate => ⟨(hsame hstate).1, fun found hf => ?_⟩⟩
    cases hf
    exact (hsame hstate).2

-- A load returns the union of what succeeded. Changes that are there are not stored again, and a
-- failed call changes nothing.
theorem store_refines_change_set (backend : Backend Key) (calls : List StoreCall)
    (hg : ∀ call ∈ calls, call.op.Complete backend) (documentId : DocumentId) :
    load backend (performAll backend .empty calls) documentId =
        .ok ((history backend documentId calls).map fun known =>
          ⟨backend.save known.changes, backend.getHeads known.changes, known.applicationState,
            known.sequence⟩) ∧
      (∀ permuted, (∀ call ∈ permuted, call.op.Complete backend) →
        (succeeded backend calls).Perm (succeeded backend permuted) →
          (load backend (performAll backend .empty calls) documentId).map
              (Option.map fun stored => (stored.snapshot, stored.durableHeads)) =
            (load backend (performAll backend .empty permuted) documentId).map
              (Option.map fun stored => (stored.snapshot, stored.durableHeads))) ∧
      (∀ faults request known, history backend request.documentId calls = some known →
        (∀ change ∈ request.changes, change ∈ known.changes) →
          let database := performAll backend .empty calls
          let result := perform backend database ⟨.Commit request, faults⟩
          result.2.chunks = database.chunks ∧
            (known.applicationState = request.applicationState →
              result.2 = database ∧
                ∀ receipt, result.1 = .ok (.Commit receipt) → receipt.newlyPersisted = false)) ∧
      ∀ call error, (perform backend (performAll backend .empty calls) call).1 = .error error →
        (perform backend (performAll backend .empty calls) call).2 =
          performAll backend .empty calls := by
  refine ⟨load_tracks (tracks_history hg documentId), ?_, ?_, ?_⟩
  · intro permuted hp hperm
    have hchanges : (history backend documentId calls).map History.changes =
        (history backend documentId permuted).map History.changes := by
      unfold history
      rw [changes_historyFrom, changes_historyFrom]
      exact hperm.foldl_eq' (fun first _ second _ changes => absorb_comm changes first second) _
    rw [load_tracks (tracks_history hg documentId), load_tracks (tracks_history hp documentId)]
    have hview : ∀ known : Option History,
        (Except.ok (known.map fun known => (⟨backend.save known.changes,
            backend.getHeads known.changes, known.applicationState, known.sequence⟩ :
              StoredDocument)) : Except (StoreError Key) _).map
            (Option.map fun stored => (stored.snapshot, stored.durableHeads)) =
          .ok ((known.map History.changes).map fun changes =>
            (backend.save changes, backend.getHeads changes)) := by
      intro known
      cases known <;> rfl
    rw [hview, hview, hchanges]
  · intro faults request known hknown hchanges
    have ht := tracks_history hg request.documentId
    rw [hknown] at ht
    exact recommit_known faults ht hchanges
  · exact fun call error he => perform_error he

end Runs

def NO_FAULTS : Faults := ⟨none, none⟩

-- A change without its dependency, a compaction, the dependency, a compaction.
def orphanedRun : List StoreCall :=
  [⟨.InstallSnapshot 0 (referenceSave ∅) [] [7], NO_FAULTS⟩, ⟨.Commit ⟨0, [1], [8]⟩, NO_FAULTS⟩,
    ⟨.Compact 0, NO_FAULTS⟩, ⟨.Commit ⟨0, [0], [9]⟩, NO_FAULTS⟩, ⟨.Compact 0, NO_FAULTS⟩]

theorem orphanedRun_complete : ∀ call ∈ orphanedRun, call.op.Complete referenceBackend := by
  have hi : (StoreOp.InstallSnapshot 0 (referenceSave ∅) [] [7]).Complete referenceBackend := by
    refine ⟨referenceSave_ne ∅, fun candidate hl => ?_⟩
    cases hl
    rfl
  unfold orphanedRun
  simp only [List.forall_mem_cons, List.not_mem_nil, false_imp_iff, implies_true, and_true]
  exact ⟨hi, trivial, trivial, trivial, trivial⟩

theorem orphaned_run_loads :
    (∀ call ∈ orphanedRun, call.op.Complete referenceBackend) ∧
      load referenceBackend (performAll referenceBackend .empty orphanedRun) 0 =
        .ok (some ⟨referenceSave {0, 1}, [1], [9], 3⟩) := by
  have hh : history referenceBackend 0 orphanedRun = some ⟨{0, 1}, 3, [9]⟩ := by
    have hf : (history referenceBackend 0 orphanedRun).map (fun known =>
        (known.changes, known.sequence, known.applicationState)) = some ({0, 1}, 3, [9]) := by
      decide +kernel
    obtain ⟨⟨_, _, _⟩, hk, he⟩ := Option.map_eq_some_iff.mp hf
    simp only [Prod.mk.injEq] at he
    rw [hk, he.1, he.2.1, he.2.2]
  refine ⟨orphanedRun_complete, ?_⟩
  rw [(store_refines_change_set referenceBackend orphanedRun orphanedRun_complete 0).1, hh,
    Option.map_some]
  rfl

-- After the empty input the document never loads again. A second snapshot with the same heads is
-- accepted, and its queued change is lost.
theorem install_loses_document :
    let empty : StoreCall := ⟨.InstallSnapshot 0 [] [] [], NO_FAULTS⟩
    let first : StoreCall := ⟨.InstallSnapshot 0 (referenceSave {1}) [] [], NO_FAULTS⟩
    let second : StoreCall := ⟨.InstallSnapshot 0 (referenceSave {2}) [] [], NO_FAULTS⟩
    let installed := (perform referenceBackend .empty first).2
    ((perform referenceBackend .empty empty).1 = .ok (.Commit ⟨[], 1, true⟩) ∧
      load referenceBackend (performAll referenceBackend .empty [empty]) 0 =
        .error (.MissingChunks 0)) ∧
      (perform referenceBackend installed second).1 = .ok (.Commit ⟨[], 1, false⟩) ∧
      load referenceBackend (performAll referenceBackend .empty [first, second]) 0 =
        .ok (some ⟨referenceSave {1}, [], [], 1⟩) := by
  decide +kernel

end Nteract.Store
