import Mathlib

namespace Nteract.BokehReplacement

open Function (update update_self update_of_ne)

inductive BokehSessionStatus
  | Connected
  | Disconnected
  | Closed
  | Error
deriving DecidableEq

structure BokehSessionState where
  status : BokehSessionStatus
  epoch : Nat
  docHeads : List String
  previousHeads : List String
deriving DecidableEq

structure BokehSessionDoc where
  epoch : Nat
  heads : List String
deriving DecidableEq

structure BokehReplacementRecord where
  sessionId : String
  epoch : Nat
  docHeads : List String
  previousHeads : List String

abbrev Docs := String → Option BokehSessionDoc

abbrev Records := String → Option BokehSessionState

-- The documents that the store serves, and the records of the runtime state.
structure IngestContext where
  docs : Docs
  records : Records

-- One call: the due sessions in the order in which the map hands them out, the heads of the
-- replacements that are built and the records that are written.
structure Round where
  due : List String
  built : String → Option (List String)
  written : String → Bool

-- A failed build leaves the loop. The documents replaced before it stay replaced.
def replaceDue (built : String → Option (List String)) :
    List String → Docs → Docs × Option (List BokehReplacementRecord)
  | [], docs => (docs, some [])
  | sessionId :: due, docs =>
    match docs sessionId, built sessionId with
    | none, _ => replaceDue built due docs
    | some _, none => (docs, none)
    | some doc, some heads =>
      let replaced := replaceDue built due (update docs sessionId (some ⟨doc.epoch + 1, heads⟩))
      (replaced.1, replaced.2.map (⟨sessionId, doc.epoch + 1, heads, doc.heads⟩ :: ·))

-- The second part collects the sessions whose records are no longer connected.
def publish (written : String → Bool) (published : Records × List String)
    (record : BokehReplacementRecord) : Records × List String :=
  match published.1 record.sessionId with
  | none => published
  | some session =>
    if session.status ≠ .Connected then (published.1, published.2 ++ [record.sessionId])
    else if written record.sessionId then
      (update published.1 record.sessionId
        (some ⟨session.status, record.epoch, record.docHeads, record.previousHeads⟩), published.2)
    else
      published

def applyReplacements (ctx : IngestContext) (round : Round) : IngestContext :=
  match replaceDue round.built round.due ctx.docs with
  | (docs, none) => ⟨docs, ctx.records⟩
  | (docs, some records) =>
    let published := records.foldl (publish round.written) (ctx.records, [])
    ⟨fun sessionId => if sessionId ∈ published.2 then none else docs sessionId, published.1⟩

def AgreesAt (sessionId : String) (ctx : IngestContext) : Prop :=
  ∀ doc session, ctx.docs sessionId = some doc → ctx.records sessionId = some session →
    session.status = .Connected → session.epoch = doc.epoch

-- Whether the latest replacement of the session, if there was one, was also written.
def lastWritten (sessionId : String) (rounds : List Round) : Bool :=
  rounds.foldl (fun written round =>
    if sessionId ∈ round.due then round.written sessionId else written) true

theorem publish_other (hne : sessionId ≠ record.sessionId) :
    (publish written published record).1 sessionId = published.1 sessionId := by
  unfold publish
  split
  · rfl
  · split
    · rfl
    · split
      · exact update_of_ne hne _ _
      · rfl

theorem publish_agrees (hw : written record.sessionId = true)
    (hd : docs record.sessionId = some ⟨record.epoch, record.docHeads⟩) :
    AgreesAt record.sessionId ⟨docs, (publish written published record).1⟩ := by
  intro doc session hc hs hconnected
  obtain rfl := Option.some.inj (hd.symm.trans hc)
  unfold publish at hs
  cases hr : published.1 record.sessionId with
  | none => simp [hr] at hs
  | some stored =>
    simp only [hr, hw, if_true] at hs
    split at hs
    · rename_i hstale
      obtain rfl := Option.some.inj (hr.symm.trans hs)
      exact absurd hconnected hstale
    · simp only [update_self, Option.some.injEq] at hs
      rw [← hs]

-- Where every build succeeds, a due session agrees as soon as its own record is written.
theorem replaceDue_agrees (hb : ∀ sessionId ∈ due, (built sessionId).isSome) :
    ∃ after replaced, replaceDue built due docs = (after, some replaced) ∧
      ∀ published sessionId, (AgreesAt sessionId ⟨docs, published.1⟩ ∨ sessionId ∈ due) →
        (sessionId ∈ due → written sessionId = true) →
        AgreesAt sessionId ⟨after, (replaced.foldl (publish written) published).1⟩ := by
  induction due generalizing docs with
  | nil => exact ⟨docs, [], rfl, fun _ _ ha _ => ha.resolve_right nofun⟩
  | cons first due ih =>
    rw [List.forall_mem_cons] at hb
    obtain ⟨heads, hh⟩ := Option.isSome_iff_exists.mp hb.1
    cases hd : docs first with
    | none =>
      obtain ⟨after, replaced, he, hr⟩ := @ih docs hb.2
      refine ⟨after, replaced, by simp only [replaceDue, hd, he], fun published id ha hw => ?_⟩
      refine hr published id ?_ fun hm => hw (.tail _ hm)
      refine ha.elim .inl fun hm => (List.mem_cons.mp hm).imp_left ?_
      rintro rfl _ _ hc
      cases hd.symm.trans hc
    | some doc =>
      obtain ⟨after, replaced, he, hr⟩ := @ih (update docs first (some ⟨doc.epoch + 1, heads⟩)) hb.2
      refine ⟨after, ⟨first, doc.epoch + 1, heads, doc.heads⟩ :: replaced,
        by simp only [replaceDue, hd, hh, he, Option.map_some], fun published id ha hw => ?_⟩
      refine hr _ id ?_ fun hm => hw (.tail _ hm)
      by_cases hf : id = first
      · subst hf
        exact .inl (publish_agrees (hw (.head _)) (update_self ..))
      · refine ha.imp (fun ha => ?_) fun hm => (List.mem_cons.mp hm).resolve_left hf
        intro current session hc hs
        exact ha current session ((update_of_ne hf ..).symm.trans hc)
          ((publish_other hf).symm.trans hs)

theorem applyReplacements_agrees {round : Round}
    (hb : ∀ sessionId ∈ round.due, (round.built sessionId).isSome)
    (ha : AgreesAt sessionId ctx ∨ sessionId ∈ round.due)
    (hw : sessionId ∈ round.due → round.written sessionId = true) :
    AgreesAt sessionId (applyReplacements ctx round) := by
  obtain ⟨after, replaced, he, hr⟩ := @replaceDue_agrees _ _ ctx.docs round.written hb
  intro doc session hd hs
  simp only [applyReplacements, he] at hd hs
  -- A session removed as stale has no document left to agree with.
  split at hd
  · cases hd
  · exact hr (ctx.records, []) sessionId ha hw doc session hd hs

theorem replaced_epochs_published (ctx : IngestContext) (rounds : List Round)
    (ha : ∀ sessionId, AgreesAt sessionId ctx)
    (hb : ∀ round ∈ rounds, ∀ sessionId ∈ round.due, (round.built sessionId).isSome)
    (sessionId : String) (hw : lastWritten sessionId rounds = true) :
    AgreesAt sessionId (rounds.foldl applyReplacements ctx) := by
  -- The flag of `lastWritten` and the context are followed together.
  suffices hs : ∀ (ctx : IngestContext) (flag : Bool), (flag = true → AgreesAt sessionId ctx) →
      rounds.foldl (fun written round =>
        if sessionId ∈ round.due then round.written sessionId else written) flag = true →
      AgreesAt sessionId (rounds.foldl applyReplacements ctx) from
    hs ctx true (fun _ => ha sessionId) hw
  clear hw
  induction rounds with
  | nil => exact fun _ _ hf hw => hf hw
  | cons round rounds ih =>
    rw [List.forall_mem_cons] at hb
    refine fun ctx flag hf => ih hb.2 _ _ fun hw => ?_
    dsimp only at hw
    split at hw
    · exact applyReplacements_agrees hb.1 (.inr ‹_›) fun _ => hw
    · exact applyReplacements_agrees hb.1 (.inl (hf hw)) fun hm => absurd hm ‹_›

def CONNECTED : IngestContext :=
  ⟨fun _ => some ⟨0, ["h"]⟩, fun _ => some ⟨.Connected, 0, ["h"], []⟩⟩

-- The write for "b" fails, and that for "a" still goes through.
theorem written_beside_failed_write : AgreesAt "a" (applyReplacements CONNECTED
    ⟨["b", "a"], fun _ => some ["g"], (· ≠ "b")⟩) :=
  replaced_epochs_published CONNECTED [⟨["b", "a"], fun _ => some ["g"], (· ≠ "b")⟩]
    (by rintro _ _ _ ⟨⟩ ⟨⟩ _; rfl) (by simp) "a" (by decide)

-- "a" is replaced before the build for "b" fails, and it is not due in the round after that.
theorem failed_build_hides_epoch :
    let last := [⟨["a", "b"], fun id => if id = "b" then none else some ["g"], fun _ => true⟩,
      ⟨["b"], fun _ => some ["g"], fun _ => true⟩].foldl applyReplacements CONNECTED
    last.docs "a" = some ⟨1, ["g"]⟩ ∧ last.records "a" = some ⟨.Connected, 0, ["h"], []⟩ := by
  decide

end Nteract.BokehReplacement
