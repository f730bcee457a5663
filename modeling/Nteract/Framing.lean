import Nteract.Recovery.Json

namespace Nteract.Framing

open Lib.Bytes
open List hiding count

abbrev Bytes := List UInt8

inductive NotebookFrameType
  | AutomergeSync
  | Request
  | Response
  | Broadcast
  | Presence
  | RuntimeStateSync
  | PoolStateSync
  | SessionControl
  | PutBlob
  | CommsDocSync
  | CommentsDocSync
  | KeyedDocSync
deriving DecidableEq

def NotebookFrameType.tryFrom (value : UInt8) : Option NotebookFrameType :=
  [.AutomergeSync, .Request, .Response, .Broadcast, .Presence, .RuntimeStateSync, .PoolStateSync,
    .SessionControl, .PutBlob, .CommsDocSync, .CommentsDocSync, .KeyedDocSync][value.toNat]?

structure TypedNotebookFrame where
  frameType : NotebookFrameType
  payload : Bytes
deriving DecidableEq

def KIB : Nat := 1024

def MIB : Nat := 1024 * 1024

def MAX_FRAME_SIZE : Nat := 100 * MIB

-- The caps of the frame size limits. The warn thresholds only write to the log.
def typedFrameSizeLimits : NotebookFrameType → Nat
  | .AutomergeSync | .Response | .RuntimeStateSync | .CommsDocSync | .CommentsDocSync => 64 * MIB
  | .Request | .Broadcast | .KeyedDocSync => 16 * MIB
  | .Presence => 4 * KIB
  | .PoolStateSync | .SessionControl => MIB
  | .PutBlob => 32 * MIB

def frameSizeLimits (typeByte : UInt8) : Nat :=
  match NotebookFrameType.tryFrom typeByte with
  | some frameType => typedFrameSizeLimits frameType
  | none => MAX_FRAME_SIZE

def hexByte (byte : UInt8) : String := String.ofList (Recovery.hexDigits 2 byte.toNat)

def sendFrame (data : Bytes) : Except String Bytes :=
  if data.length > MAX_FRAME_SIZE then
    .error s!"frame too large to send: {data.length} bytes (max {MAX_FRAME_SIZE})"
  else
    .ok ((leBytes 4 data.length).reverse ++ data)

def sendRawTypedFrame (typeByte : UInt8) (payload : Bytes) : Except String Bytes :=
  let cap := frameSizeLimits typeByte
  if payload.length > cap then
    .error s!"outbound frame too large for type 0x{hexByte typeByte}: {payload.length} bytes (max {cap})"
  else
    sendFrame (typeByte :: payload)

def sendAll : List (UInt8 × Bytes) → Except String Bytes
  | [] => .ok []
  | (typeByte, payload) :: frames => do
    let bytes ← sendRawTypedFrame typeByte payload
    let stream ← sendAll frames
    return bytes ++ stream

-- The bytes read and the rest. Without enough bytes the stream has ended.
def readExact (count : Nat) (reader : Bytes) : Option (Bytes × Bytes) :=
  if count ≤ reader.length then some (reader.take count, reader.drop count) else none

def EARLY_EOF : String := "early eof"

def DISCARD_CHUNK : Nat := 8 * 1024

def discardExact (reader : Bytes) (len : Nat) : Option Bytes :=
  if len = 0 then some reader
  else
    match readExact (min len DISCARD_CHUNK) reader with
    | none => none
    | some (_, rest) => discardExact rest (len - min len DISCARD_CHUNK)
termination_by len
decreasing_by
  unfold DISCARD_CHUNK
  omega

inductive Pass
  | Frame (frame : TypedNotebookFrame) (rest : Bytes)
  | Skipped (rest : Bytes)
  | Eof
  | Failed (message : String)
deriving DecidableEq

def recvOnce (reader : Bytes) : Pass :=
  match readExact 4 reader with
  | none => .Eof
  | some (lenBuf, reader) =>
    let len := leNat lenBuf.reverse
    if len = 0 then .Failed "empty frame"
    else if len > MAX_FRAME_SIZE then
      .Failed s!"frame too large: {len} bytes (max {MAX_FRAME_SIZE})"
    else
      match readExact 1 reader with
      | none => .Failed EARLY_EOF
      | some (typeBuf, reader) =>
        let typeByte := typeBuf.headD 0
        let bodyLen := len - 1
        match NotebookFrameType.tryFrom typeByte with
        | none =>
          match discardExact reader bodyLen with
          | none => .Failed EARLY_EOF
          | some rest => .Skipped rest
        | some frameType =>
          let cap := typedFrameSizeLimits frameType
          if bodyLen > cap then
            .Failed s!"frame too large for type 0x{hexByte typeByte}: {bodyLen} bytes (max {cap})"
          else
            match readExact bodyLen reader with
            | none => .Failed EARLY_EOF
            | some (payload, rest) => .Frame ⟨frameType, payload⟩ rest

def Pass.rest : Pass → Option Bytes
  | .Frame _ rest | .Skipped rest => some rest
  | .Eof | .Failed _ => none

def Pass.append (more : Bytes) : Pass → Pass
  | .Frame frame rest => .Frame frame (rest ++ more)
  | .Skipped rest => .Skipped (rest ++ more)
  | pass => pass

variable {reader rest : Bytes}

theorem readExact_append (bytes rest : Bytes) :
    readExact bytes.length (bytes ++ rest) = some (bytes, rest) := by
  simp [readExact]

theorem readExact_some (hr : readExact count reader = some (bytes, rest)) :
    reader = bytes ++ rest ∧ bytes.length = count := by
  unfold readExact at hr
  split at hr
  · cases hr
    simpa using ‹count ≤ reader.length›
  · cases hr

theorem readExact_more (hr : readExact count reader = some (bytes, rest)) (more : Bytes) :
    readExact count (reader ++ more) = some (bytes, rest ++ more) := by
  obtain ⟨rfl, rfl⟩ := readExact_some hr
  rw [append_assoc, readExact_append]

theorem discardExact_eq (reader : Bytes) (len : Nat) :
    discardExact reader len = (readExact len reader).map Prod.snd := by
  fun_induction discardExact reader len with
  | case1 => simp [readExact]
  | case2 _ _ _ hnone =>
    unfold readExact at hnone ⊢
    simp only [ite_eq_right_iff, reduceCtorEq, imp_false] at hnone
    rw [if_neg (by omega)]
    rfl
  | case3 _ len _ chunk rest hr ih =>
    obtain ⟨rfl, hc⟩ := readExact_some hr
    have hle : chunk.length ≤ len := hc ▸ Nat.min_le_left ..
    rw [ih, ← hc]
    unfold readExact
    rw [length_append, drop_append, drop_of_length_le hle]
    by_cases hf : len ≤ chunk.length + rest.length
    · rw [if_pos hf, if_pos (by omega)]
      rfl
    · rw [if_neg hf, if_neg (by omega)]

theorem recvOnce_more (hr : (recvOnce reader).rest = some rest) (more : Bytes) :
    rest.length < reader.length ∧ recvOnce (reader ++ more) = (recvOnce reader).append more := by
  unfold recvOnce at hr ⊢
  cases hl : readExact 4 reader with
  | none => simp [hl, Pass.rest] at hr
  | some result =>
    obtain ⟨lenBuf, body⟩ := result
    simp only [hl, readExact_more hl more] at hr ⊢
    obtain ⟨rfl, _⟩ := readExact_some hl
    split at hr
    · cases hr
    split at hr
    · cases hr
    rename_i hz hlarge
    simp only [hz, hlarge]
    cases ht : readExact 1 body with
    | none => simp [ht, Pass.rest] at hr
    | some result =>
      obtain ⟨typeBuf, body⟩ := result
      simp only [ht, readExact_more ht more] at hr ⊢
      obtain ⟨rfl, -⟩ := readExact_some ht
      simp only [discardExact_eq] at hr ⊢
      cases hb : readExact (leNat lenBuf.reverse - 1) body with
      | none =>
        simp only [hb] at hr
        split at hr
        · cases hr
        · split at hr <;> cases hr
      | some result =>
        obtain ⟨payload, left⟩ := result
        simp only [hb, readExact_more hb more] at hr ⊢
        obtain ⟨rfl, -⟩ := readExact_some hb
        have hs : left.length < (lenBuf ++ (typeBuf ++ (payload ++ left))).length := by
          simp only [length_append]
          omega
        split at hr
        · cases hr
          exact ⟨hs, rfl⟩
        · split at hr
          · cases hr
          · cases hr
            rename_i hc
            simp only [hc]
            exact ⟨hs, rfl⟩

def recvTypedFrame (reader : Bytes) : Except String (Option (TypedNotebookFrame × Bytes)) :=
  match _hpass : recvOnce reader with
  | .Frame frame rest => .ok (some (frame, rest))
  | .Skipped rest => recvTypedFrame rest
  | .Eof => .ok none
  | .Failed message => .error message
termination_by reader.length
decreasing_by
  exact (recvOnce_more (by rw [_hpass]; rfl) []).1

theorem recvTypedFrame_more {frame : TypedNotebookFrame}
    (hf : recvTypedFrame reader = .ok (some (frame, rest))) (more : Bytes) :
    rest.length < reader.length ∧
      recvTypedFrame (reader ++ more) = .ok (some (frame, rest ++ more)) := by
  fun_induction recvTypedFrame reader with
  | case1 _ _ _ hp =>
    cases hf
    obtain ⟨hs, hm⟩ := recvOnce_more (by rw [hp]; rfl) more
    refine ⟨hs, ?_⟩
    rw [recvTypedFrame, hm, hp]
    rfl
  | case2 _ _ hp ih =>
    obtain ⟨hs, hm⟩ := recvOnce_more (by rw [hp]; rfl) more
    obtain ⟨hl, hr⟩ := ih hf
    refine ⟨hl.trans hs, ?_⟩
    rw [recvTypedFrame, hm, hp]
    exact hr
  | case3 | case4 => cases hf

-- recv_typed_frame called until the stream ends or fails.
def recvAll (reader : Bytes) : List TypedNotebookFrame × Except String Unit :=
  match _hframe : recvTypedFrame reader with
  | .ok (some (frame, rest)) => (frame :: (recvAll rest).1, (recvAll rest).2)
  | .ok none => ([], .ok ())
  | .error message => ([], .error message)
termination_by reader.length
decreasing_by
  all_goals exact (recvTypedFrame_more _hframe []).1

theorem recvAll_frame {frame : TypedNotebookFrame}
    (hf : recvTypedFrame reader = .ok (some (frame, rest))) :
    recvAll reader = (frame :: (recvAll rest).1, (recvAll rest).2) := by
  rw [recvAll, hf]

theorem recvAll_prefix (reader more : Bytes) :
    (recvAll reader).1 <+: (recvAll (reader ++ more)).1 := by
  fun_induction recvAll reader with
  | case1 _ _ _ hframe ih =>
    rw [recvAll_frame (recvTypedFrame_more hframe more).2]
    exact cons_prefix_cons.mpr ⟨rfl, ih⟩
  | case2 | case3 => exact nil_prefix

theorem sendRawTypedFrame_ok (hs : sendRawTypedFrame typeByte payload = .ok bytes) :
    payload.length ≤ frameSizeLimits typeByte ∧ payload.length + 1 ≤ MAX_FRAME_SIZE ∧
      bytes = (leBytes 4 (payload.length + 1)).reverse ++ typeByte :: payload := by
  unfold sendRawTypedFrame sendFrame at hs
  dsimp only at hs
  split at hs
  · cases hs
  split at hs
  · cases hs
  cases hs
  rename_i hc hm
  exact ⟨by omega, by simpa using hm, rfl⟩

theorem recvOnce_sent (hsent : sendRawTypedFrame typeByte payload = .ok bytes) (rest : Bytes) :
    recvOnce (bytes ++ rest) =
      match NotebookFrameType.tryFrom typeByte with
      | some frameType => .Frame ⟨frameType, payload⟩ rest
      | none => .Skipped rest := by
  obtain ⟨hc, hm, rfl⟩ := sendRawTypedFrame_ok hsent
  have hl : leNat (leBytes 4 (payload.length + 1)) = payload.length + 1 :=
    leNat_leBytes _ _ (by unfold MAX_FRAME_SIZE MIB at hm; omega)
  have hf := readExact_append (leBytes 4 (payload.length + 1)).reverse
    (typeByte :: (payload ++ rest))
  have ho := readExact_append [typeByte] (payload ++ rest)
  have hb := readExact_append payload rest
  rw [length_reverse, leBytes_length] at hf
  simp only [length_singleton, singleton_append] at ho
  unfold recvOnce
  simp only [append_assoc, hf, reverse_reverse, hl, cons_append, ho,
    discardExact_eq, Nat.add_sub_cancel, hb, headD_cons]
  rw [if_neg (Nat.succ_ne_zero _), if_neg (Nat.not_lt.mpr hm)]
  unfold frameSizeLimits at hc
  split
  · rename_i hn
    simp [hn]
  · rename_i frameType hs
    rw [hs] at hc ⊢
    rw [if_neg (Nat.not_lt.mpr hc)]

def knownFrames (frames : List (UInt8 × Bytes)) : List TypedNotebookFrame :=
  frames.filterMap fun frame => (NotebookFrameType.tryFrom frame.1).map (⟨·, frame.2⟩)

theorem recvAll_sent (hsent : sendAll frames = .ok stream) :
    recvAll stream = (knownFrames frames, .ok ()) := by
  induction frames generalizing stream with
  | nil =>
    cases hsent
    rw [recvAll, recvTypedFrame]
    rfl
  | cons frame frames ih =>
    obtain ⟨typeByte, payload⟩ := frame
    unfold sendAll at hsent
    cases hb : sendRawTypedFrame typeByte payload with
    | error => simp [hb, bind, Except.bind] at hsent
    | ok bytes =>
      cases hs : sendAll frames with
      | error => simp [hb, hs, bind, Except.bind] at hsent
      | ok later =>
        obtain rfl : bytes ++ later = stream := by
          simpa [hb, hs, bind, Except.bind, pure, Except.pure] using hsent
        have hp := recvOnce_sent hb later
        cases ht : NotebookFrameType.tryFrom typeByte with
        | some frameType =>
          simp only [ht] at hp
          have hf : recvTypedFrame (bytes ++ later) =
              .ok (some (⟨frameType, payload⟩, later)) := by rw [recvTypedFrame, hp]
          rw [recvAll_frame hf, ih hs]
          simp [knownFrames, ht]
        | none =>
          simp only [ht] at hp
          have hskip : recvTypedFrame (bytes ++ later) = recvTypedFrame later := by
            rw [recvTypedFrame, hp]
          rw [recvAll, hskip, ← recvAll, ih hs]
          simp [knownFrames, ht]

-- Typed frames round trip, and a broken stream yields nothing unsent.
theorem typed_frames_round_trip (frames : List (UInt8 × Bytes)) (stream : Bytes)
    (hsent : sendAll frames = .ok stream) :
    recvAll stream = (knownFrames frames, .ok ()) ∧
      ∀ cut, cut <+: stream → (recvAll cut).1 <+: knownFrames frames := by
  have ha := recvAll_sent hsent
  refine ⟨ha, ?_⟩
  rintro cut ⟨more, rfl⟩
  have hc := recvAll_prefix cut more
  rwa [ha] at hc

theorem unknown_frame_skipped :
    let frames : List (UInt8 × Bytes) := [(1, [7]), (254, [1, 2]), (3, [])]
    ∃ stream, sendAll frames = .ok stream ∧
      recvAll stream = ([⟨.Request, [7]⟩, ⟨.Broadcast, []⟩], .ok ()) := by
  intro frames
  exact ⟨_, rfl, (typed_frames_round_trip frames _ rfl).1⟩

end Nteract.Framing
