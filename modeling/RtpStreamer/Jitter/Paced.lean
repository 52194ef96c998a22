import RtpStreamer.Jitter.JitterBuffer
import Mathlib.Algebra.Group.Nat.Defs

/-!
# Runs paced by the playout clock

The runs that the receiver makes on its buffer while no clock wraps: packets arrive at any time, and at
ticks 160 samples apart the playout thread pulls frames until nothing is due or the buffer is finished.
-/

namespace RtpStreamer

open JitterBuffer

variable {P : Platform}

/-- Whether the loop over `try_pull_due_frame` ends with a pull: it returns false, or the buffer is
finished behind it. -/
def JitterBuffer.loopEnds (jb : JitterBuffer P) (now : U32) : Bool :=
  (jb.tryPullDueFrame now).1.isNone || (jb.tryPullDueFrame now).2.finished

/-- A paced run, with the clock that it has reached and the time of the tick that is due next or whose
pulls are not yet done. A run may begin at any time within the 160 samples in front of its first tick. -/
inductive Paced (P : Platform) (options : Options)
    (junk : Vector (Vector U8 kSlotPayloadBytes) kCapacity) : List Call → (clock tick : Nat) → Prop
  | start {clock tick : Nat} (hle : clock ≤ tick) (htick : tick ≤ clock + kFrameSamples) :
    Paced P options junk [] clock tick
  | push {calls : List Call} {clock tick : Nat} (h : Paced P options junk calls clock tick)
    (packet : Packet) {arrival : U32} (hclock : clock ≤ arrival.toNat) (htick : arrival.toNat ≤ tick)
    (hbound : arrival.toNat < 2 ^ 31) :
    Paced P options junk (calls ++ [.push packet arrival]) arrival.toNat tick
  | markStreamEnded {calls : List Call} {clock tick : Nat} (h : Paced P options junk calls clock tick) :
    Paced P options junk (calls ++ [.markStreamEnded]) clock tick
  /-- Another pull at the tick. -/
  | again {calls : List Call} {clock : Nat} {now : U32} (h : Paced P options junk calls clock now.toNat)
    (hbound : now.toNat < 2 ^ 31)
    (hloop : loopEnds ((jitterSystem P options junk).run calls) now = false) :
    Paced P options junk (calls ++ [.pull now]) now.toNat now.toNat
  /-- The last pull at the tick. -/
  | rest {calls : List Call} {clock : Nat} {now : U32} (h : Paced P options junk calls clock now.toNat)
    (hbound : now.toNat < 2 ^ 31)
    (hloop : loopEnds ((jitterSystem P options junk).run calls) now = true) :
    Paced P options junk (calls ++ [.pull now]) now.toNat (now.toNat + kFrameSamples)

end RtpStreamer
