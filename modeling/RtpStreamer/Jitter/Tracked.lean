import RtpStreamer.Jitter.JitterBuffer

/-!
# Which packet a frame comes from

The jitter buffer with proof-only bookkeeping: every slot remembers the number of the call that stored
its packet, so a pull can be asked which push its frame comes from. Nothing the buffer computes
depends on the bookkeeping.
-/

namespace RtpStreamer

variable {P : Platform}

/-- Whether `push` stores the packet rather than drop it. -/
def JitterBuffer.stores (jb : JitterBuffer P) (packet : Packet) (arrival : U32) : Bool :=
  let jb := jb.noteArrival packet arrival
  decide (jb.cursor ≤ jb.frameIndex packet.sequenceNumber) &&
    decide (jb.frameIndex packet.sequenceNumber < jb.cursor + kCapacity) &&
    !jb.holds packet.sequenceNumber

structure Tracked (P : Platform) where
  buffer : JitterBuffer P
  /-- The number of calls made so far. -/
  calls : Nat := 0
  /-- The call that last stored a packet in each slot. -/
  writer : Vector Nat kCapacity := Vector.replicate kCapacity 0

namespace Tracked

def next (t : Tracked P) (call : Call) : Tracked P where
  buffer := t.buffer.next call
  calls := t.calls + 1
  writer :=
    match call with
    | .push packet arrival =>
      if t.buffer.stores packet arrival then
        setAt t.writer (JitterBuffer.slotIndex packet.sequenceNumber) t.calls
      else t.writer
    | _ => t.writer

/-- The push whose packet a call plays. -/
def source (t : Tracked P) (call : Call) : Option Nat :=
  if t.buffer.playsReal call then
    some (t.writer.get (JitterBuffer.slotIndex t.buffer.cursorSequence))
  else none

end Tracked

/-- The jitter buffer with its bookkeeping. -/
def trackedSystem (P : Platform) (options : Options)
    (junk : Vector (Vector U8 kSlotPayloadBytes) kCapacity) :
    DetSystem Call (Option Frame × Option Nat) where
  State := Tracked P
  init := { buffer := JitterBuffer.fresh P options junk }
  next := Tracked.next
  obs t call := (t.buffer.returned call, t.source call)

/-- Call `m` of a run is a pull that outputs the payload of the packet pushed by call `n`. -/
def Outputs (P : Platform) (options : Options)
    (junk : Vector (Vector U8 kSlotPayloadBytes) kCapacity) (calls : List Call) (m n : Nat) :
    Prop :=
  ∃ frame, ((trackedSystem P options junk).trace calls)[m]? = some (some frame, some n)

end RtpStreamer
