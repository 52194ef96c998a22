import RtpStreamer.Codec.Adpcm
import RtpStreamer.Codec.Ulaw
import RtpStreamer.Packet.RtpPacket
import RtpStreamer.Run.DetSystem

/-!
# The adaptive jitter buffer

`jitter_buffer.hpp` and `jitter_buffer.cpp`, function by function. The fields that only
`update_jitter_estimate` reads and writes are grouped in `JitterEstimate`. The event counters are
natural numbers: they count calls, and no run makes 2^64 of them.
-/

namespace RtpStreamer

/-- Slots of the ring. -/
def kCapacity : Nat := 32

def kMinTargetMs : Int := 100

def kMaxTargetMs : Int := 200

/-- Fade for this many frames, then silence. -/
def kMaxConsecutiveConcealments : Nat := 3

/-- Bytes of payload a slot can hold. -/
def kSlotPayloadBytes : Nat := 512

structure Counts where
  received : Nat := 0
  lost : Nat := 0
  lateDropped : Nat := 0
  reordered : Nat := 0
  concealed : Nat := 0
  duplicate : Nat := 0
  deriving DecidableEq

structure Options where
  collectStats : Bool := false
  disablePlcFade : Bool := false
  deriving DecidableEq

/-- The arguments of `push` that come from one parsed packet. -/
structure Packet where
  sequenceNumber : U16
  rtpTimestamp : U32
  payloadType : U8
  payload : List U8
  deriving DecidableEq

theorem Packet.payloadLen_le (packet : Packet) :
    min packet.payload.length kSlotPayloadBytes ≤ kSlotPayloadBytes := Nat.min_le_right _ _

/-- `xs[i] = x`, for an index that is in range by its type. -/
def setAt {α : Type} {n : Nat} (xs : Vector α n) (i : Fin n) (x : α) : Vector α n :=
  xs.set i.val x i.isLt

/-- One slot of the ring. The constructor of the source leaves `payload` uninitialised, and `push`
overwrites only its first `payload_len` bytes. -/
structure Slot where
  occupied : Bool := false
  sequenceNumber : U16 := 0
  payloadType : U8 := 0
  payloadLen : Nat := 0
  arrivalSamples : U32 := 0
  payload : Vector U8 kSlotPayloadBytes
  payloadLen_le : payloadLen ≤ kSlotPayloadBytes := by decide

/-! ## Decoding a payload -/

/-- Reads `numSamples` samples with `memcpy`, two bytes each. -/
def readSamples (order : ByteOrder) : (numSamples : Nat) → (bytes : List U8) → List I16
  | numSamples + 1, b0 :: b1 :: bytes => loadU16 order b0 b1 :: readSamples order numSamples bytes
  | _, _ => []

/-- The body of `decode_slot`, over the slot's payload type, payload length and payload bytes. -/
def decodeBytes (order : ByteOrder) (payloadType : U8) (payloadLen : Nat) (bytes : List U8) :
    Frame :=
  if payloadType = kPayloadTypePcm then
    padFrame (readSamples order (min (payloadLen / kBytesPerSample) kFrameSamples) bytes)
  else if payloadType = kPayloadTypePcmu then
    padFrame (ulawDecodeFrame bytes (min payloadLen kFrameSamples))
  else if payloadType = kPayloadTypeAdpcm ∧ kAdpcmStateHeaderBytes ≤ payloadLen then
    match bytes with
    | in0 :: in1 :: in2 :: in3 :: packed =>
      let state := unpackAdpcmState #v[in0, in1, in2, in3]
      let packedBytes := payloadLen - kAdpcmStateHeaderBytes
      padFrame (adpcmDecodeFrame packed (min (packedBytes * 2) kFrameSamples) state).1
    | _ => silence
  else silence

def decodeSlot (order : ByteOrder) (slot : Slot) : Frame :=
  decodeBytes order slot.payloadType slot.payloadLen slot.payload.toList

/-- What `decode_slot` makes of a payload that no slot has truncated. -/
def decodePayload (order : ByteOrder) (payloadType : U8) (payload : List U8) : Frame :=
  decodeBytes order payloadType payload.length payload

/-! ## The jitter estimate -/

/-- `std::clamp`. -/
def clampMs (target : Int) : Int :=
  if target < kMinTargetMs then kMinTargetMs
  else if kMaxTargetMs < target then kMaxTargetMs
  else target

/-- The fields of the buffer that `update_jitter_estimate` reads and writes. -/
structure JitterEstimate (P : Platform) where
  havePrevArrival : Bool := false
  prevRtpTimestamp : U32 := 0
  prevArrivalSamples : U32 := 0
  jitterEstimateSamples : P.Double := P.zero
  targetDepthMs : Int := kMinTargetMs
  targetDepthHistoryMs : List Int := []

variable {P : Platform}

def updateJitterEstimate (options : Options) (est : JitterEstimate P)
    (rtpTimestamp arrivalSamples : U32) : JitterEstimate P :=
  let est :=
    if est.havePrevArrival then
      let dArrival : Int := (arrivalSamples.toNat : Int) - est.prevArrivalSamples.toNat
      let dTimestamp : Int := (rtpTimestamp.toNat : Int) - est.prevRtpTimestamp.toNat
      let jitter := P.accumulate est.jitterEstimateSamples (dArrival - dTimestamp)
      let target := clampMs (P.targetMs jitter)
      { est with
        jitterEstimateSamples := jitter
        targetDepthMs := target
        targetDepthHistoryMs :=
          if options.collectStats then est.targetDepthHistoryMs ++ [target]
          else est.targetDepthHistoryMs }
    else est
  { est with
    prevRtpTimestamp := rtpTimestamp
    prevArrivalSamples := arrivalSamples
    havePrevArrival := true }

/-! ## The buffer -/

structure JitterBuffer (P : Platform) where
  slots : Vector Slot kCapacity
  started : Bool := false
  /-- Sequence number of the first packet ever received. -/
  baseSequence : U16 := 0
  firstArrivalSamples : U32 := 0
  /-- The playout cursor, as a frame offset from `baseSequence`. -/
  framesPlayed : U32 := 0
  haveHighest : Bool := false
  highestSequenceSeen : U16 := 0
  highestFrameIndexSeen : Int := -1
  estimate : JitterEstimate P := {}
  haveLastRealFrame : Bool := false
  lastRealFrame : Frame := silence
  consecutiveConcealments : Nat := 0
  streamEnded : Bool := false
  counts : Counts := {}
  options : Options
  latencySamplesMs : List U32 := []

namespace JitterBuffer

/-- A buffer as the constructor leaves it; `junk` is the uninitialised payload memory. -/
def fresh (P : Platform) (options : Options)
    (junk : Vector (Vector U8 kSlotPayloadBytes) kCapacity) : JitterBuffer P where
  slots := junk.map fun payload => { payload := payload }
  options := options

/-- `static_cast<int16_t>(sequence_number - base_sequence_)`. -/
def frameIndex (jb : JitterBuffer P) (sequenceNumber : U16) : Int :=
  (sequenceNumber - jb.baseSequence).toInt

/-- `static_cast<int32_t>(frames_played_)`. -/
def cursor (jb : JitterBuffer P) : Int := jb.framesPlayed.toInt

def slotIndex (sequenceNumber : U16) : Fin kCapacity :=
  ⟨sequenceNumber.toNat % kCapacity, Nat.mod_lt _ (by decide)⟩

/-- `std::memcpy(slot.payload, payload, slot.payload_len)`: the bytes beyond stay what they were. -/
def memcpyPayload (old : Vector U8 kSlotPayloadBytes) (payload : List U8) :
    Vector U8 kSlotPayloadBytes :=
  Vector.ofFn fun i => payload.getD i (old.get i)

/-- `base_sequence_` once the packet has been seen: the first packet fixes it. -/
def baseAfter (jb : JitterBuffer P) (sequenceNumber : U16) : U16 :=
  if jb.started then jb.baseSequence else sequenceNumber

/-- `highest_sequence_seen_` once the packet has been seen. -/
def highestAfter (jb : JitterBuffer P) (sequenceNumber : U16) : U16 :=
  if !jb.haveHighest then sequenceNumber
  else if (sequenceNumber - jb.highestSequenceSeen).toInt > 0 then sequenceNumber
  else jb.highestSequenceSeen

/-- Whether the packet arrived behind the highest sequence number already seen. -/
def isReordered (jb : JitterBuffer P) (sequenceNumber : U16) : Bool :=
  jb.haveHighest && decide ((sequenceNumber - jb.highestSequenceSeen).toInt < 0)

/-- The part of `push` before the packet is placed: count it, update the jitter estimate, fix the
origin on the first packet, and track the highest sequence number and frame index. -/
def noteArrival (jb : JitterBuffer P) (packet : Packet) (arrivalSamples : U32) : JitterBuffer P :=
  let frameIndex := (packet.sequenceNumber - jb.baseAfter packet.sequenceNumber).toInt
  { jb with
    estimate := updateJitterEstimate jb.options jb.estimate packet.rtpTimestamp arrivalSamples
    started := true
    baseSequence := jb.baseAfter packet.sequenceNumber
    firstArrivalSamples := if jb.started then jb.firstArrivalSamples else arrivalSamples
    haveHighest := true
    highestSequenceSeen := jb.highestAfter packet.sequenceNumber
    highestFrameIndexSeen := max jb.highestFrameIndexSeen frameIndex
    counts := { jb.counts with
      received := jb.counts.received + 1
      reordered := jb.counts.reordered + (jb.isReordered packet.sequenceNumber).toNat } }

/-- `slot.occupied && slot.sequence_number == sequence_number`, for the slot of the number. -/
def holds (jb : JitterBuffer P) (sequenceNumber : U16) : Bool :=
  let slot := jb.slots.get (slotIndex sequenceNumber)
  slot.occupied && slot.sequenceNumber == sequenceNumber

def dropLate (jb : JitterBuffer P) : JitterBuffer P :=
  { jb with counts := { jb.counts with lateDropped := jb.counts.lateDropped + 1 } }

def dropDuplicate (jb : JitterBuffer P) : JitterBuffer P :=
  { jb with counts := { jb.counts with duplicate := jb.counts.duplicate + 1 } }

/-- The slot of a stored packet, over the memory of the slot it overwrites. -/
def fillSlot (old : Slot) (packet : Packet) (arrivalSamples : U32) : Slot where
  occupied := true
  sequenceNumber := packet.sequenceNumber
  payloadType := packet.payloadType
  payloadLen := min packet.payload.length kSlotPayloadBytes
  arrivalSamples := arrivalSamples
  payload := memcpyPayload old.payload packet.payload
  payloadLen_le := packet.payloadLen_le

def store (jb : JitterBuffer P) (packet : Packet) (arrivalSamples : U32) : JitterBuffer P :=
  let slot := jb.slots.get (slotIndex packet.sequenceNumber)
  { jb with
    slots := setAt jb.slots (slotIndex packet.sequenceNumber) (fillSlot slot packet arrivalSamples) }

/-- The part of `push` that drops the packet or stores it in its slot. -/
def place (jb : JitterBuffer P) (packet : Packet) (arrivalSamples : U32) : JitterBuffer P :=
  let frameIndex := jb.frameIndex packet.sequenceNumber
  if frameIndex < jb.cursor then jb.dropLate -- its slot already played
  else if frameIndex - jb.cursor ≥ kCapacity then jb.dropLate -- farther ahead than the ring can hold
  else if jb.holds packet.sequenceNumber then jb.dropDuplicate
  else jb.store packet arrivalSamples

def push (jb : JitterBuffer P) (packet : Packet) (arrivalSamples : U32) : JitterBuffer P :=
  (jb.noteArrival packet arrivalSamples).place packet arrivalSamples

/-- Whether `conceal` gives up fading and returns silence. -/
def concealsSilence (jb : JitterBuffer P) : Bool :=
  jb.options.disablePlcFade || !jb.haveLastRealFrame ||
    decide (jb.consecutiveConcealments ≥ kMaxConsecutiveConcealments)

/-- A faded frame is computed from the last real frame, not from the last concealed one. -/
def conceal (jb : JitterBuffer P) : Frame × JitterBuffer P :=
  let counts := { jb.counts with concealed := jb.counts.concealed + 1 }
  if jb.concealsSilence then (silence, { jb with counts := counts })
  else
    (jb.lastRealFrame.map (P.fade (jb.consecutiveConcealments + 1)),
      { jb with counts := counts, consecutiveConcealments := jb.consecutiveConcealments + 1 })

def markStreamEnded (jb : JitterBuffer P) : JitterBuffer P := { jb with streamEnded := true }

def finished (jb : JitterBuffer P) : Bool :=
  if !jb.started then jb.streamEnded
  else if !jb.streamEnded then false
  else decide (jb.cursor > jb.highestFrameIndexSeen)

/-- The deadline of the frame at the cursor, in wrapping 32-bit arithmetic. -/
def deadline (jb : JitterBuffer P) : U32 :=
  let targetDepthSamples : U32 :=
    BitVec.ofInt 32 jb.estimate.targetDepthMs * BitVec.ofNat 32 kSampleRateHz / 1000
  jb.firstArrivalSamples + jb.framesPlayed * BitVec.ofNat 32 kFrameSamples + targetDepthSamples

/-- The checks that open `try_pull_due_frame`: whether it goes on to produce a frame. -/
def isDue (jb : JitterBuffer P) (nowSamples : U32) : Bool :=
  if !jb.started || jb.finished then false
  else if !jb.streamEnded then
    -- never speculate past the frontier of what has actually been received
    if jb.cursor > jb.highestFrameIndexSeen then false
    else if nowSamples < jb.deadline then false
    else true
  else true

/-- The sequence number of the frame at the cursor. -/
def cursorSequence (jb : JitterBuffer P) : U16 :=
  (jb.baseSequence.setWidth 32 + jb.framesPlayed).setWidth 16

/-- The branch of `try_pull_due_frame` that decodes the buffered packet. -/
def playReal (jb : JitterBuffer P) (nowSamples : U32) : Frame × JitterBuffer P :=
  let slot := jb.slots.get (slotIndex jb.cursorSequence)
  let out := decodeSlot P.byteOrder slot
  let latencySamplesMs :=
    if jb.options.collectStats then
      let latencySamples := nowSamples - slot.arrivalSamples
      jb.latencySamplesMs ++ [latencySamples * 1000 / BitVec.ofNat 32 kSampleRateHz]
    else jb.latencySamplesMs
  (out, { jb with
    latencySamplesMs := latencySamplesMs
    slots := setAt jb.slots (slotIndex jb.cursorSequence) { slot with occupied := false }
    consecutiveConcealments := 0
    haveLastRealFrame := true
    lastRealFrame := out })

/-- The branch of `try_pull_due_frame` for a frame with nothing buffered. -/
def playConcealed (jb : JitterBuffer P) : Frame × JitterBuffer P :=
  conceal { jb with counts := { jb.counts with lost := jb.counts.lost + 1 } }

/-- Produces the frame at the cursor and advances the cursor. -/
def produce (jb : JitterBuffer P) (nowSamples : U32) : Frame × JitterBuffer P :=
  let (out, jb) :=
    if jb.holds jb.cursorSequence then jb.playReal nowSamples else jb.playConcealed
  (out, { jb with framesPlayed := jb.framesPlayed + 1 })

/-- `none` when nothing is due, and then the buffer is unchanged. -/
def tryPullDueFrame (jb : JitterBuffer P) (nowSamples : U32) : Option Frame × JitterBuffer P :=
  if jb.isDue nowSamples then
    let (out, jb) := jb.produce nowSamples
    (some out, jb)
  else (none, jb)

end JitterBuffer

/-! ## Runs -/

/-- The calls that the receiver's threads make on the buffer. -/
inductive Call where
  | push (packet : Packet) (arrivalSamples : U32)
  | pull (nowSamples : U32)
  | markStreamEnded
  deriving DecidableEq

namespace JitterBuffer

/-- The buffer after a call. -/
def next (jb : JitterBuffer P) : Call → JitterBuffer P
  | .push packet arrivalSamples => jb.push packet arrivalSamples
  | .pull nowSamples => (jb.tryPullDueFrame nowSamples).2
  | .markStreamEnded => jb.markStreamEnded

/-- The frame a call returns: `none` for a pull that returns false, and for the other calls. -/
def returned (jb : JitterBuffer P) : Call → Option Frame
  | .pull nowSamples => (jb.tryPullDueFrame nowSamples).1
  | _ => none

/-- Whether a call plays a buffered packet. -/
def playsReal (jb : JitterBuffer P) : Call → Bool
  | .pull now => jb.isDue now && jb.holds jb.cursorSequence
  | _ => false

def occupiedSlots (jb : JitterBuffer P) : Nat := jb.slots.countP (·.occupied)

end JitterBuffer

/-- The jitter buffer as a system driven by calls. -/
def jitterSystem (P : Platform) (options : Options)
    (junk : Vector (Vector U8 kSlotPayloadBytes) kCapacity) : DetSystem Call (Option Frame) where
  State := JitterBuffer P
  init := JitterBuffer.fresh P options junk
  next := JitterBuffer.next
  obs := JitterBuffer.returned

end RtpStreamer
