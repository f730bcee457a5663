import Nteract.Lib.Transition

namespace Nteract.ConfirmSync

open Lib.Transition Finset Option

-- A sync message of the client: one of its rounds, or a reply to a frame.
structure ClientMessage (H : Type) where
  changes : Finset H
  isRound : Bool

-- A sync frame of the daemon: the heads it announces, and how many rounds it had received.
structure DaemonFrame (H : Type) where
  decodes : Bool
  changes : Finset H
  heads : Finset H
  rounds : Nat

structure ConfirmWaiter (H : Type) where
  targetHeads : Finset H
  sentGeneration : Option Nat
  deadline : Nat

-- A waiter that was answered with Ok, and the daemon's document at that moment.
structure Answer (H : Type) where
  targetHeads : Finset H
  deadline : Nat
  now : Nat
  daemon : Finset H

-- A document is the set of its changes. `announced`: the heads of all frames received, `answers`:
-- all answers given.
structure System (H : Type) where
  doc : Finset H
  sharedHeads : Finset H
  announced : Finset H
  confirmWaiters : List (ConfirmWaiter H)
  answers : List (Answer H)
  syncGeneration : Nat
  ackedSyncGeneration : Nat
  nextConfirmSyncAttempt : Nat
  toDaemon : List (ClientMessage H)
  toClient : List (DaemonFrame H)
  daemon : Finset H
  rounds : Nat

-- Milliseconds.
def CONFIRM_SYNC_TIMEOUT : Nat := 10000

def CONFIRM_SYNC_RETRY : Nat := 200

variable {H : Type} [DecidableEq H]

def headsConfirmedByPeer (targetHeads sharedHeads : Finset H) : Bool :=
  decide (targetHeads = ∅ ∨ targetHeads ⊆ sharedHeads)

namespace System

def connected (doc daemon : Finset H) : System H :=
  ⟨doc, ∅, ∅, [], [], 0, 0, 0, [], [], daemon, 0⟩

variable (system : System H)

def confirms (waiter : ConfirmWaiter H) : Bool :=
  headsConfirmedByPeer waiter.targetHeads system.sharedHeads ||
    (waiter.sentGeneration.map fun generation =>
      decide (generation ≤ system.ackedSyncGeneration)).getD false

def answer (waiter : ConfirmWaiter H) (now : Nat) : Answer H :=
  ⟨waiter.targetHeads, waiter.deadline, now, system.daemon⟩

-- A waiter that is past its deadline is answered with Ok as well.
def resolveConfirmWaiters (now : Nat) : System H :=
  let (ended, pending) := system.confirmWaiters.partition fun waiter =>
    system.confirms waiter || decide (waiter.deadline ≤ now)
  { system with
    confirmWaiters := pending
    answers := system.answers ++ ended.map (system.answer · now) }

variable (message : Option (Finset H)) (now : Nat)

-- `message` are the changes in what Automerge generates, if it generates anything.
def sendDocSyncRound : Option Nat × System H :=
  match message with
  | none => (none, system)
  | some changes =>
    (some (system.syncGeneration + 1), { system with
      toDaemon := system.toDaemon ++ [⟨changes, true⟩]
      syncGeneration := system.syncGeneration + 1 })

def markUnsentConfirmWaiters (generation : Nat) : System H :=
  { system with
    confirmWaiters := system.confirmWaiters.map fun waiter =>
      if waiter.sentGeneration.isNone then { waiter with sentGeneration := some generation }
      else waiter }

def onChanged : System H :=
  match system.sendDocSyncRound message with
  | (none, sent) => sent.resolveConfirmWaiters now
  | (some generation, sent) =>
    (sent.markUnsentConfirmWaiters generation).resolveConfirmWaiters now

def driveConfirmSyncRound : System H :=
  if system.confirmWaiters.isEmpty then system
  else
    { system with nextConfirmSyncAttempt := now + CONFIRM_SYNC_RETRY }.onChanged message now

def confirmSync (targetHeads : Finset H) (message : Option (Finset H)) (now : Nat) : System H :=
  let deadline := now + CONFIRM_SYNC_TIMEOUT
  if headsConfirmedByPeer targetHeads system.sharedHeads then
    { system with
      answers := system.answers ++ [system.answer ⟨targetHeads, none, deadline⟩ now] }
  else
    let (generation, sent) := system.sendDocSyncRound message
    let waiter : ConfirmWaiter H := ⟨targetHeads, generation, deadline⟩
    { sent with
      confirmWaiters := sent.confirmWaiters ++ [waiter]
      nextConfirmSyncAttempt := now + CONFIRM_SYNC_RETRY }.resolveConfirmWaiters now

def onMaintenance : System H :=
  let resolved := system.resolveConfirmWaiters now
  if system.nextConfirmSyncAttempt ≤ now then resolved.driveConfirmSyncRound message now
  else resolved

-- A sync frame that does not decode is dropped.
def handleIncomingFrame (frame : DaemonFrame H) (sharedHeads : Finset H)
    (reply : Option (Finset H)) : System H :=
  if frame.decodes then
    { system with
      doc := system.doc ∪ frame.changes
      sharedHeads := sharedHeads
      announced := system.announced ∪ frame.heads
      toDaemon := system.toDaemon ++ reply.toList.map (⟨·, false⟩) }
  else
    system

def onFrame (frame : DaemonFrame H) (sharedHeads : Finset H) (reply message : Option (Finset H))
    (now : Nat) : System H :=
  let handled := system.handleIncomingFrame frame sharedHeads reply
  let acked := { handled with ackedSyncGeneration := handled.syncGeneration }
  (acked.resolveConfirmWaiters now).driveConfirmSyncRound message now

-- A frame of another type acknowledges nothing, and the waiters are served as after every frame.
def onOtherFrame : System H :=
  (system.resolveConfirmWaiters now).driveConfirmSyncRound message now

end System

-- What Automerge generates and what it takes for shared is part of the event.
inductive Event (H : Type)
  | Edit (change : H)
  | Confirm (targetHeads : Finset H) (message : Option (Finset H)) (now : Nat)
  | Changed (message : Option (Finset H)) (now : Nat)
  | Frame (sharedHeads : Finset H) (reply message : Option (Finset H)) (now : Nat)
  | OtherFrame (message : Option (Finset H)) (now : Nat)
  | Maintenance (message : Option (Finset H)) (now : Nat)
  | DaemonEdit (change : H)
  | DaemonReceive
  | DaemonPush (decodes : Bool) (changes heads : Finset H)

-- Targets are heads of the client's document, and shared heads have been announced.
def System.step (system : System H) : Event H → Option (System H)
  | .Edit change => some { system with doc := insert change system.doc }
  | .Confirm targetHeads message now =>
    if targetHeads ∪ message.getD ∅ ⊆ system.doc then
      some (system.confirmSync targetHeads message now)
    else none
  | .Changed message now =>
    if message.getD ∅ ⊆ system.doc then some (system.onChanged message now) else none
  | .Frame sharedHeads reply message now =>
    match system.toClient with
    | [] => none
    | frame :: toClient =>
      if sharedHeads ⊆ system.announced ∪ frame.heads ∧
          reply.getD ∅ ∪ message.getD ∅ ⊆ system.doc ∪ frame.changes then
        some ({ system with toClient := toClient }.onFrame frame sharedHeads reply message now)
      else none
  | .OtherFrame message now =>
    if message.getD ∅ ⊆ system.doc then some (system.onOtherFrame message now) else none
  | .Maintenance message now =>
    if message.getD ∅ ⊆ system.doc then some (system.onMaintenance message now) else none
  | .DaemonEdit change => some { system with daemon := insert change system.daemon }
  | .DaemonReceive =>
    match system.toDaemon with
    | [] => none
    | message :: toDaemon =>
      some { system with
        toDaemon := toDaemon
        daemon := system.daemon ∪ message.changes
        rounds := system.rounds + if message.isRound then 1 else 0 }
  | .DaemonPush decodes changes heads =>
    if changes ⊆ system.daemon ∧ heads ⊆ system.daemon then
      some { system with
        toClient := system.toClient ++ [⟨decodes, changes, heads, system.rounds⟩] }
    else none

def Steps (before : System H) (event : Event H) (after : System H) : Prop :=
  before.step event = some after

-- The next frame came after the rounds of all waiters, with their targets.
def Answered (system : System H) : Event H → Prop
  | .Frame _ _ _ _ => ∀ frame ∈ system.toClient.head?, ∀ waiter ∈ system.confirmWaiters,
      ∀ generation ∈ waiter.sentGeneration, generation ≤ frame.rounds
  | .DaemonReceive => ∀ message ∈ system.toDaemon.head?, message.isRound = true →
      ∀ waiter ∈ system.confirmWaiters, waiter.sentGeneration = some (system.rounds + 1) →
        waiter.targetHeads ⊆ system.daemon ∪ message.changes
  | _ => True

instance (system : System H) (event : Event H) : Decidable (Answered system event) := by
  cases event <;> unfold Answered <;> infer_instance

-- The daemon has the targets of every round it received and of every answer in time.
structure Sound (system : System H) : Prop where
  announced : system.announced ⊆ system.daemon
  shared : system.sharedHeads ⊆ system.announced
  frames : ∀ frame ∈ system.toClient, frame.heads ⊆ system.daemon ∧ frame.rounds ≤ system.rounds
  count : system.syncGeneration = system.rounds + system.toDaemon.countP (·.isRound)
  acked : system.ackedSyncGeneration ≤ system.syncGeneration
  waiters : ∀ waiter ∈ system.confirmWaiters, ∀ generation ∈ waiter.sentGeneration,
    generation ≤ system.rounds ∨ generation ≤ system.ackedSyncGeneration →
    waiter.targetHeads ⊆ system.daemon
  answers : ∀ answer ∈ system.answers, answer.now < answer.deadline →
    answer.targetHeads ⊆ answer.daemon

namespace Sound

variable {system : System H} (hsound : Sound system)

include hsound

theorem subset_of_confirmed (hc : headsConfirmedByPeer targetHeads system.sharedHeads = true) :
    targetHeads ⊆ system.daemon := by
  rcases of_decide_eq_true hc with rfl | hs
  · exact empty_subset _
  · exact hs.trans (hsound.shared.trans hsound.announced)

theorem subset_of_confirms (hm : waiter ∈ system.confirmWaiters)
    (hconfirms : system.confirms waiter = true) : waiter.targetHeads ⊆ system.daemon := by
  rcases Bool.or_eq_true_iff.mp hconfirms with hc | ha
  · exact hsound.subset_of_confirmed hc
  · cases hs : waiter.sentGeneration with
    | none => simp [hs] at ha
    | some generation =>
      rw [hs] at ha
      exact hsound.waiters waiter hm generation hs (.inr (of_decide_eq_true ha))

theorem resolve (now : Nat) : Sound (system.resolveConfirmWaiters now) := by
  unfold System.resolveConfirmWaiters
  rw [List.partition_eq_filter_filter]
  refine { hsound with waiters := fun waiter hm => ?_, answers := fun answer hm hl => ?_ }
  · exact hsound.waiters waiter (List.mem_filter.mp hm).1
  · rcases List.mem_append.mp hm with hm | hm
    · exact hsound.answers answer hm hl
    · obtain ⟨_, hw, rfl⟩ := List.mem_map.mp hm
      obtain ⟨hm, he⟩ := List.mem_filter.mp hw
      rcases Bool.or_eq_true_iff.mp he with hc | hd
      · exact hsound.subset_of_confirms hm hc
      · exact absurd (of_decide_eq_true hd) (Nat.not_le.mpr hl)

omit [DecidableEq H] in
theorem waiting (attempt : Nat) {waiters : List (ConfirmWaiter H)}
    (hw : ∀ waiter ∈ waiters, waiter ∈ system.confirmWaiters ∨ ∀ generation ∈ waiter.sentGeneration,
        system.rounds < generation ∧ system.ackedSyncGeneration < generation) :
    Sound { system with confirmWaiters := waiters, nextConfirmSyncAttempt := attempt } := by
  refine { hsound with waiters := fun waiter hm generation hs hseen => ?_ }
  rcases hw waiter hm with hm | hu
  · exact hsound.waiters waiter hm generation hs hseen
  · have hu := hu generation hs
    dsimp only at hseen
    omega

omit [DecidableEq H] in
theorem sendDocSyncRound (message : Option (Finset H)) : Sound (system.sendDocSyncRound message).2 ∧
      ∀ generation ∈ (system.sendDocSyncRound message).1,
        (system.sendDocSyncRound message).2.rounds < generation ∧
          (system.sendDocSyncRound message).2.ackedSyncGeneration < generation := by
  have hcount := hsound.count
  have hacked := hsound.acked
  cases message with
  | none => exact ⟨hsound, nofun⟩
  | some changes =>
    refine ⟨{ hsound with count := ?_, acked := Nat.le_succ_of_le hacked }, ?_⟩
    · simp [System.sendDocSyncRound, hcount, Nat.add_assoc]
    · intro generation hnew
      cases hnew
      dsimp only [System.sendDocSyncRound]
      omega

theorem onChanged (message : Option (Finset H)) (now : Nat) :
    Sound (system.onChanged message now) := by
  obtain ⟨hs, hu⟩ := hsound.sendDocSyncRound message
  unfold System.onChanged
  split
  · next sent hr =>
    rw [hr] at hs
    exact hs.resolve now
  · next generation sent hr =>
    rw [hr] at hs hu
    refine (hs.waiting sent.nextConfirmSyncAttempt fun waiter hm => ?_).resolve now
    obtain ⟨_, ho, rfl⟩ := List.mem_map.mp hm
    split
    · exact .inr hu
    · exact .inl ho

theorem drive (message : Option (Finset H)) (now : Nat) :
    Sound (system.driveConfirmSyncRound message now) := by
  unfold System.driveConfirmSyncRound
  split
  · exact hsound
  · exact (hsound.waiting _ fun _ => .inl).onChanged message now

theorem confirmSync (targetHeads : Finset H) (message : Option (Finset H)) (now : Nat) :
    Sound (system.confirmSync targetHeads message now) := by
  obtain ⟨hsent, hunseen⟩ := hsound.sendDocSyncRound message
  unfold System.confirmSync
  split
  · next hconfirmed =>
    refine { hsound with answers := fun answer hm hlate => ?_ }
    rcases List.mem_append.mp hm with hm | hm
    · exact hsound.answers answer hm hlate
    · obtain rfl := List.mem_singleton.mp hm
      exact hsound.subset_of_confirmed hconfirmed
  · refine (hsent.waiting _ fun waiter hm => ?_).resolve now
    rcases List.mem_append.mp hm with hm | hm
    · exact .inl hm
    · obtain rfl := List.mem_singleton.mp hm
      exact .inr hunseen

theorem onOtherFrame (message : Option (Finset H)) (now : Nat) :
    Sound (system.onOtherFrame message now) :=
  (hsound.resolve now).drive message now

theorem onMaintenance (message : Option (Finset H)) (now : Nat) :
    Sound (system.onMaintenance message now) := by
  unfold System.onMaintenance
  split
  · exact (hsound.resolve now).drive message now
  · exact hsound.resolve now

theorem onFrame (hnext : system.toClient = frame :: toClient)
    (hshared : sharedHeads ⊆ system.announced ∪ frame.heads)
    (hanswered : ∀ waiter ∈ system.confirmWaiters, ∀ generation ∈ waiter.sentGeneration,
      generation ≤ frame.rounds) (reply message : Option (Finset H)) (now : Nat) :
    Sound ({ system with toClient := toClient }.onFrame frame sharedHeads reply message now) := by
  have hframes := hsound.frames
  rw [hnext, List.forall_mem_cons] at hframes
  have hheld : ∀ waiter ∈ system.confirmWaiters, ∀ generation ∈ waiter.sentGeneration,
      waiter.targetHeads ⊆ system.daemon := fun waiter hm generation hsent =>
    hsound.waiters waiter hm generation hsent
      (.inl ((hanswered waiter hm generation hsent).trans hframes.1.2))
  refine (resolve ?_ now).drive message now
  unfold System.handleIncomingFrame
  split
  · refine ⟨union_subset hsound.announced hframes.1.1, hshared, hframes.2, ?_, Nat.le_refl _,
      fun waiter hm generation hsent _ => hheld waiter hm generation hsent, hsound.answers⟩
    cases reply <;> simp [hsound.count]
  · exact ⟨hsound.announced, hsound.shared, hframes.2, hsound.count, Nat.le_refl _,
      fun waiter hm generation hsent _ => hheld waiter hm generation hsent, hsound.answers⟩

theorem receive (hnext : system.toDaemon = message :: toDaemon)
    (hbrings : message.isRound = true → ∀ waiter ∈ system.confirmWaiters, waiter.sentGeneration =
      some (system.rounds + 1) → waiter.targetHeads ⊆ system.daemon ∪ message.changes) :
    Sound { system with
      toDaemon := toDaemon
      daemon := system.daemon ∪ message.changes
      rounds := system.rounds + if message.isRound then 1 else 0 } := by
  have hgrows : system.daemon ⊆ system.daemon ∪ message.changes := subset_union_left
  have hcount := hsound.count
  rw [hnext, List.countP_cons] at hcount
  refine { hsound with
    announced := hsound.announced.trans hgrows
    frames := fun frame hm => ⟨(hsound.frames frame hm).1.trans hgrows,
      Nat.le_add_right_of_le (hsound.frames frame hm).2⟩
    count := by dsimp only; omega
    waiters := fun waiter hm generation hsent hseen => ?_ }
  by_cases hold : generation ≤ system.rounds ∨ generation ≤ system.ackedSyncGeneration
  · exact (hsound.waiters waiter hm generation hsent hold).trans hgrows
  · dsimp only at hseen
    split at hseen
    · next hround =>
      obtain rfl : generation = system.rounds + 1 := by omega
      exact hbrings hround waiter hm hsent
    · exact absurd hseen hold

theorem step (ha : Answered system event) (hs : system.step event = some after) : Sound after := by
  cases event with
  | Edit change =>
    cases hs
    exact { hsound with }
  | Confirm targetHeads message now =>
    obtain ⟨_, hs⟩ := ite_none_right_eq_some.mp hs
    cases hs
    exact hsound.confirmSync targetHeads message now
  | Changed message now =>
    obtain ⟨_, hs⟩ := ite_none_right_eq_some.mp hs
    cases hs
    exact hsound.onChanged message now
  | Frame sharedHeads reply message now =>
    unfold System.step at hs
    dsimp only at hs
    split at hs
    · cases hs
    · next frame toClient hn =>
      obtain ⟨hc, hs⟩ := ite_none_right_eq_some.mp hs
      cases hs
      have hp := ha frame (by rw [hn]; rfl)
      exact hsound.onFrame hn hc.1 hp reply message now
  | OtherFrame message now =>
    obtain ⟨_, hs⟩ := ite_none_right_eq_some.mp hs
    cases hs
    exact hsound.onOtherFrame message now
  | Maintenance message now =>
    obtain ⟨_, hs⟩ := ite_none_right_eq_some.mp hs
    cases hs
    exact hsound.onMaintenance message now
  | DaemonEdit change =>
    cases hs
    have hg := subset_insert change system.daemon
    exact { hsound with
      announced := hsound.announced.trans hg
      frames := fun frame hm => (hsound.frames frame hm).imp_left (·.trans hg)
      waiters := fun waiter hm generation hsent hseen =>
        (hsound.waiters waiter hm generation hsent hseen).trans hg }
  | DaemonReceive =>
    unfold System.step at hs
    dsimp only at hs
    split at hs
    · cases hs
    · next message toDaemon hn =>
      cases hs
      exact hsound.receive hn (ha message (by rw [hn]; rfl))
  | DaemonPush decodes changes heads =>
    obtain ⟨hc, hs⟩ := ite_none_right_eq_some.mp hs
    cases hs
    refine { hsound with frames := fun frame hm => ?_ }
    rcases List.mem_append.mp hm with hm | hm
    · exact hsound.frames frame hm
    · obtain rfl := List.mem_singleton.mp hm
      exact ⟨hc.2, Nat.le_refl _⟩

end Sound

-- Whoever is told in time that the heads are confirmed finds them at the daemon.
theorem confirmed_heads_held {doc daemon : Finset H} {events : List (Event H)} {last : System H}
    (hrun : Run (Guarded Steps Answered) (.connected doc daemon) events last) :
    ∀ answer ∈ last.answers, answer.now < answer.deadline →
      answer.targetHeads ⊆ answer.daemon := by
  refine (hrun.invariant Sound ?_ ?_).answers
  · rintro _ _ _ hsound ⟨hg, hs⟩
    exact hsound.step hg hs
  · exact ⟨empty_subset _, empty_subset _, nofun, rfl, Nat.le_refl _, nofun, nofun⟩

theorem answered_edit_held : ∃ last : System Nat,
    Run (Guarded Steps Answered) (.connected ∅ ∅) [.Edit 1, .Confirm {1} (some {1}) 0,
      .DaemonReceive, .DaemonPush true ∅ ∅, .Frame ∅ none none 1] last ∧
    ∃ answer ∈ last.answers, answer.targetHeads = {1} ∧ answer.targetHeads ⊆ answer.daemon := by
  have hr : ∃ last : System Nat,
      Run (Guarded Steps Answered) (.connected ∅ ∅) [.Edit 1, .Confirm {1} (some {1}) 0,
        .DaemonReceive, .DaemonPush true ∅ ∅, .Frame ∅ none none 1] last ∧
      last.answers = [⟨{1}, 10000, 1, {1}⟩] :=
    ⟨_, .cons ⟨trivial, rfl⟩ (.cons ⟨trivial, rfl⟩ (.cons ⟨by decide +kernel, rfl⟩
      (.cons ⟨trivial, rfl⟩ (.cons ⟨by decide +kernel, rfl⟩ (.nil _))))), rfl⟩
  obtain ⟨last, hr, ha⟩ := hr
  have hm : ⟨{1}, 10000, 1, {1}⟩ ∈ last.answers := ha ▸ (.head _)
  exact ⟨last, hr, _, hm, rfl, confirmed_heads_held hr _ hm (by decide)⟩

-- The run answers a waiter in time although the daemon lacks its target heads.
def Misleads (events : List (Event Nat)) : Prop :=
  ∃ (last : System Nat) (answer : Answer Nat), Run Steps (.connected ∅ ∅) events last ∧
    answer ∈ last.answers ∧ answer.now < answer.deadline ∧ ¬answer.targetHeads ⊆ answer.daemon

-- A frame that was on its way already, and the answer to a round without changes.
theorem unrelated_frames_confirm :
    Misleads [.DaemonPush true ∅ ∅, .Edit 1, .Confirm {1} (some {1}) 0, .Frame ∅ none none 1] ∧
      Misleads [.Edit 1, .Confirm {1} (some ∅) 0, .DaemonReceive, .DaemonPush true ∅ ∅,
        .Frame ∅ none none 1] := by
  constructor
  · exact ⟨_, _, .cons rfl (.cons rfl (.cons rfl (.cons rfl (.nil _)))), (.head _),
      by decide, by decide⟩
  · exact ⟨_, _, .cons rfl (.cons rfl (.cons rfl (.cons rfl (.cons rfl (.nil _))))),
      (.head _), by decide, by decide⟩

end Nteract.ConfirmSync
