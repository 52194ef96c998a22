import RtpStreamer.Jitter.JitterBuffer
import Mathlib.Logic.Function.Basic

/-!
# The reference jitter buffer

What the ring of 32 slots is meant to compute. The reference keeps every packet it accepts, under its
frame index and for ever, and counts the frames since the last real one. It shares with the code only
the jitter estimate, the fade and the decoding of a payload.
-/

namespace RtpStreamer

structure Reference (P : Platform) where
  options : Options
  estimate : JitterEstimate P := {}
  started : Bool := false
  baseSequence : U16 := 0
  firstArrival : U32 := 0
  /-- The first packet accepted for each frame index. -/
  accepted : Int → Option Packet := fun _ => none
  /-- The frame index that is played next. -/
  cursor : Nat := 0
  /-- The frontier: the highest frame index received. -/
  highest : Int := -1
  ended : Bool := false
  lastReal : Option Frame := none
  /-- Frames concealed since the last real one. -/
  sinceReal : Nat := 0

namespace Reference

variable {P : Platform}

/-- The frame index of a sequence number that arrives now: the first packet is frame 0. -/
def indexOf (r : Reference P) (sequenceNumber : U16) : Int :=
  (sequenceNumber - if r.started then r.baseSequence else sequenceNumber).toInt

/-- Whether a packet with this frame index is accepted: it is in the window of 32 frames and the
first one there. -/
def accepts (r : Reference P) (index : Int) : Bool :=
  decide ((r.cursor : Int) ≤ index) && decide (index < r.cursor + 32) &&
    (r.accepted index).isNone

def push (r : Reference P) (packet : Packet) (arrival : U32) : Reference P :=
  let index := r.indexOf packet.sequenceNumber
  { r with
    estimate := updateJitterEstimate r.options r.estimate packet.rtpTimestamp arrival
    started := true
    baseSequence := if r.started then r.baseSequence else packet.sequenceNumber
    firstArrival := if r.started then r.firstArrival else arrival
    highest := max r.highest index
    accepted :=
      if r.accepts index then Function.update r.accepted index (some packet) else r.accepted }

/-- When the frame at the cursor falls due. -/
def deadline (r : Reference P) : U32 :=
  r.firstArrival + BitVec.ofNat 32 (r.cursor * 160) +
    BitVec.ofInt 32 r.estimate.targetDepthMs * 8000 / 1000

def isDue (r : Reference P) (now : U32) : Bool :=
  r.started && decide ((r.cursor : Int) ≤ r.highest) && (r.ended || decide (r.deadline ≤ now))

/-- The `k`-th concealed frame in a row after `lastReal`: faded for three frames, then silence. -/
def concealment (P : Platform) (options : Options) (lastReal : Option Frame) (k : Nat) : Frame :=
  match lastReal with
  | some frame => if k ≤ 3 ∧ options.disablePlcFade = false then frame.map (P.fade k) else silence
  | none => silence

/-- The frame at the cursor. -/
def frameAtCursor (r : Reference P) : Frame :=
  match r.accepted r.cursor with
  | some packet => decodePayload P.byteOrder packet.payloadType packet.payload
  | none => concealment P r.options r.lastReal (r.sinceReal + 1)

def pull (r : Reference P) (now : U32) : Option Frame × Reference P :=
  if r.isDue now then
    match r.accepted r.cursor with
    | some _ =>
      (some r.frameAtCursor,
        { r with cursor := r.cursor + 1, lastReal := some r.frameAtCursor, sinceReal := 0 })
    | none =>
      (some r.frameAtCursor, { r with cursor := r.cursor + 1, sinceReal := r.sinceReal + 1 })
  else (none, r)

def next (r : Reference P) : Call → Reference P
  | .push packet arrival => r.push packet arrival
  | .pull now => (r.pull now).2
  | .markStreamEnded => { r with ended := true }

def returned (r : Reference P) : Call → Option Frame
  | .pull now => (r.pull now).1
  | _ => none

end Reference

/-! ## What the reference plays -/

/-- The frames played so far, the last real one of them, and the frames concealed since. -/
structure Playout where
  frames : List Frame := []
  lastReal : Option Frame := none
  sinceReal : Nat := 0

/-- The first `n` frames of playout, when `real i` is the frame of the packet for position `i`, if
there is one: every other position is concealed. -/
def playout (P : Platform) (options : Options) (real : Nat → Option Frame) : Nat → Playout
  | 0 => {}
  | n + 1 =>
    let before := playout P options real n
    match real n with
    | some frame => { frames := before.frames ++ [frame], lastReal := some frame, sinceReal := 0 }
    | none => {
      frames := before.frames ++
        [Reference.concealment P options before.lastReal (before.sinceReal + 1)]
      lastReal := before.lastReal
      sinceReal := before.sinceReal + 1 }

/-- The reference as a system driven by calls. -/
def referenceSystem (P : Platform) (options : Options) : DetSystem Call (Option Frame) where
  State := Reference P
  init := { options := options }
  next := Reference.next
  obs := Reference.returned

end RtpStreamer
