import RtpStreamer.Jitter.JitterBuffer
import RtpStreamer.Memory.CheckedMemory

/-!
# The receive path with checked memory

`parse`, `push` and `try_pull_due_frame` once more, now as the source accesses memory: every array
access is checked, the loops run over indices, the output buffer starts uninitialised, and the ADPCM
state is the plain pair of the source, whose step index nothing bounds by construction. A function
returns `none` where the source would access an array out of range, copy an uninitialised sample, or
leave a step index beyond 88.
-/

namespace RtpStreamer

open CheckedMemory

/-- The `int16_t out[kFrameSamples]` of a caller. -/
abbrev OutBuffer := Cells I16 kFrameSamples

namespace Checked

/-! ## Parsing -/

def readU16 (order : ByteOrder) (data : List U8) (i : Nat) : Option U16 := do
  let p0 ← data[i]?
  let p1 ← data[i + 1]?
  return RtpStreamer.readU16 order p0 p1

def readU32 (order : ByteOrder) (data : List U8) (i : Nat) : Option U32 := do
  let p0 ← data[i]?
  let p1 ← data[i + 1]?
  let p2 ← data[i + 2]?
  let p3 ← data[i + 3]?
  return RtpStreamer.readU32 order p0 p1 p2 p3

/-- The inner `none` is the `nullopt` of a rejected datagram. -/
def parse (order : ByteOrder) (data : List U8) : Option (Option ParsedPacket) :=
  if data.length < kHeaderBytes then some none
  else do
    let d0 : U8 ← data[0]?
    if d0 >>> 6 ≠ kVersion ∨ d0 &&& 0x3F ≠ 0 then return none
    let d1 : U8 ← data[1]?
    let payloadType := d1 &&& 0x7F
    if payloadType ≠ kPayloadTypePcmu ∧ payloadType ≠ kPayloadTypeAdpcm ∧
        payloadType ≠ kPayloadTypePcm then return none
    let sequenceNumber ← readU16 order data 2
    let timestamp ← readU32 order data 4
    let ssrc ← readU32 order data 8
    return some {
      header := {
        marker := d1 &&& 0x80 ≠ 0
        payloadType := payloadType
        sequenceNumber := sequenceNumber
        timestamp := timestamp
        ssrc := ssrc }
      payload := data.drop kHeaderBytes }

/-! ## ADPCM -/

/-- `AdpcmState` without the bound on its step index. -/
structure RawState where
  predictor : I16
  stepIndex : U8

/-- `decode_sample`; `code` is one of the 256 values of a `uint8_t`. -/
def decodeSample (code : U8) (state : RawState) : Option (I16 × RawState) := do
  let step ← kStepTable[state.stepIndex.toNat]?
  let diffq := step >>> (3 : Nat)
  let diffq := if code &&& 0x04 ≠ 0 then diffq + step else diffq
  let diffq := if code &&& 0x02 ≠ 0 then diffq + step >>> (1 : Nat) else diffq
  let diffq := if code &&& 0x01 ≠ 0 then diffq + step >>> (2 : Nat) else diffq
  let adjustment ← kIndexTable[code.toNat]?
  let predictor : I16 := BitVec.ofInt 16
    (clampPredictor (state.predictor.toInt + if code &&& 0x08 ≠ 0 then -diffq else diffq))
  let stepIndex : U8 := BitVec.ofInt 8 (clampStepIndex (state.stepIndex.toNat + adjustment))
  if stepIndex.toNat ≤ 88 then return (predictor, { predictor := predictor, stepIndex := stepIndex })
  else none

/-- One round of the loop of `adpcm_decode_frame`, for the samples `2 * round` and
`2 * round + 1`. -/
def adpcmDecodeRound (packed : List U8) (numSamples round : Nat)
    (s : RawState × OutBuffer) : Option (RawState × OutBuffer) := do
  let i := 2 * round
  let byte ← packed[i / 2]?
  let (low, state) ← decodeSample (byte &&& 0x0F) s.1
  let out ← s.2.write i low
  if i + 1 < numSamples then
    let (high, state) ← decodeSample ((byte >>> 4) &&& 0x0F) state
    let out ← out.write (i + 1) high
    return (state, out)
  else return (state, out)

def adpcmDecodeFrame (packed : List U8) (numSamples : Nat) (s : RawState × OutBuffer) :
    Option (RawState × OutBuffer) :=
  forUp (adpcmDecodeRound packed numSamples) ((numSamples + 1) / 2) 0 s

def unpackAdpcmState (header : List U8) : Option RawState := do
  let in0 : U8 ← header[0]?
  let in1 : U8 ← header[1]?
  let in2 : U8 ← header[2]?
  return {
    predictor := (in0.setWidth 16 <<< 8) ||| in1.setWidth 16
    stepIndex := if in2.toNat > 88 then 88 else in2 }

/-! ## Slots -/

/-- One round of the PCM loop of `decode_slot`. -/
def pcmRound (order : ByteOrder) (payload : List U8) (i : Nat) (out : OutBuffer) :
    Option OutBuffer := do
  let b0 ← payload[2 * i]?
  let b1 ← payload[2 * i + 1]?
  out.write i (loadU16 order b0 b1)

/-- One round of the loop of `ulaw_decode_frame`. -/
def ulawRound (codes : List U8) (i : Nat) (out : OutBuffer) : Option OutBuffer := do
  let code ← codes[i]?
  out.write i (ulawToLinear code)

/-- `for (i = start; i < kFrameSamples; ++i) out[i] = 0`. -/
def zeroFrom (start : Nat) (out : OutBuffer) : Option OutBuffer :=
  forUp (fun i out => out.write i 0) (kFrameSamples - start) start out

def decodeSlot (order : ByteOrder) (slot : Slot) (out : OutBuffer) : Option OutBuffer :=
  let payload := slot.payload.toList
  if slot.payloadType = kPayloadTypePcm then do
    let numSamples := min (slot.payloadLen / kBytesPerSample) kFrameSamples
    let out ← forUp (pcmRound order payload) numSamples 0 out
    zeroFrom numSamples out
  else if slot.payloadType = kPayloadTypePcmu then do
    let numSamples := min slot.payloadLen kFrameSamples
    let out ← forUp (ulawRound payload) numSamples 0 out
    zeroFrom numSamples out
  else if slot.payloadType = kPayloadTypeAdpcm ∧ kAdpcmStateHeaderBytes ≤ slot.payloadLen then do
    let state ← unpackAdpcmState payload
    let packedBytes := slot.payloadLen - kAdpcmStateHeaderBytes
    let numSamples := min (packedBytes * 2) kFrameSamples
    let (_, out) ← adpcmDecodeFrame (payload.drop kAdpcmStateHeaderBytes) numSamples (state, out)
    zeroFrom numSamples out
  else zeroFrom 0 out

/-- One byte of `std::memcpy(slot.payload, payload, slot.payload_len)`. -/
def copyRound (payload : List U8) (i : Nat) (dest : Vector U8 kSlotPayloadBytes) :
    Option (Vector U8 kSlotPayloadBytes) := do
  let byte ← payload[i]?
  if h : i < kSlotPayloadBytes then return dest.set i byte else none

def memcpyPayload (payload : List U8) (len : Nat) (dest : Vector U8 kSlotPayloadBytes) :
    Option (Vector U8 kSlotPayloadBytes) :=
  forUp (copyRound payload) len 0 dest

/-- `slots_[i] = slot`. -/
def setSlot (slots : Vector Slot kCapacity) (i : Nat) (slot : Slot) :
    Option (Vector Slot kCapacity) :=
  if h : i < kCapacity then some (slots.set i slot) else none

/-! ## The buffer -/

variable {P : Platform}

def push (jb : JitterBuffer P) (packet : Packet) (arrivalSamples : U32) :
    Option (JitterBuffer P) := do
  let jb := jb.noteArrival packet arrivalSamples
  let frameIndex := jb.frameIndex packet.sequenceNumber
  if frameIndex < jb.cursor then return jb.dropLate
  if frameIndex - jb.cursor ≥ kCapacity then return jb.dropLate
  let slotIndex := packet.sequenceNumber.toNat % kCapacity
  let slot ← jb.slots[slotIndex]?
  if slot.occupied && slot.sequenceNumber == packet.sequenceNumber then return jb.dropDuplicate
  let payloadLen := min packet.payload.length kSlotPayloadBytes
  let payload ← memcpyPayload packet.payload payloadLen slot.payload
  let slots ← setSlot jb.slots slotIndex {
    occupied := true
    sequenceNumber := packet.sequenceNumber
    payloadType := packet.payloadType
    payloadLen := payloadLen
    arrivalSamples := arrivalSamples
    payload := payload
    payloadLen_le := packet.payloadLen_le }
  return { jb with slots := slots }

/-- One round of the fading loop of `conceal`. -/
def fadeRound (gain : I16 → I16) (lastRealFrame : Frame) (i : Nat) (out : OutBuffer) :
    Option OutBuffer := do
  let sample ← lastRealFrame[i]?
  out.write i (gain sample)

def conceal (jb : JitterBuffer P) (out : OutBuffer) : Option (OutBuffer × JitterBuffer P) := do
  let counts := { jb.counts with concealed := jb.counts.concealed + 1 }
  if jb.concealsSilence then
    let out ← zeroFrom 0 out
    return (out, { jb with counts := counts })
  else
    let k := jb.consecutiveConcealments + 1
    let out ← forUp (fadeRound (P.fade k) jb.lastRealFrame) kFrameSamples 0 out
    return (out, { jb with counts := counts, consecutiveConcealments := k })

/-- The boolean that the call returns, the output buffer and the jitter buffer after it. -/
def tryPullDueFrame (jb : JitterBuffer P) (nowSamples : U32) (out : OutBuffer) :
    Option (Bool × OutBuffer × JitterBuffer P) :=
  if !jb.isDue nowSamples then some (false, out, jb)
  else do
    let slotIndex := jb.cursorSequence.toNat % kCapacity
    let slot ← jb.slots[slotIndex]?
    if slot.occupied && slot.sequenceNumber == jb.cursorSequence then
      let out ← decodeSlot P.byteOrder slot out
      let latencySamplesMs :=
        if jb.options.collectStats then
          let latencySamples := nowSamples - slot.arrivalSamples
          jb.latencySamplesMs ++ [latencySamples * 1000 / BitVec.ofNat 32 kSampleRateHz]
        else jb.latencySamplesMs
      let slots ← setSlot jb.slots slotIndex { slot with occupied := false }
      let lastRealFrame ← out.contents
      return (true, out, { jb with
        latencySamplesMs := latencySamplesMs
        slots := slots
        consecutiveConcealments := 0
        haveLastRealFrame := true
        lastRealFrame := lastRealFrame
        framesPlayed := jb.framesPlayed + 1 })
    else
      let (out, jb) ← conceal { jb with counts := { jb.counts with lost := jb.counts.lost + 1 } } out
      return (true, out, { jb with framesPlayed := jb.framesPlayed + 1 })

end Checked

/-! ## The receiver -/

/-- What reaches the jitter buffer: a datagram of any bytes, a tick of the playout thread, or the idle
timeout. -/
inductive ReceiverEvent where
  | datagram (data : List U8) (arrivalSamples : U32)
  | pull (nowSamples : U32)
  | idle

namespace Checked

variable {P : Platform}

/-- One event. Every pull is given a buffer that nobody has written; what it leaves there is reported
when it returns true. -/
def receive (jb : JitterBuffer P) : ReceiverEvent → Option (Option OutBuffer × JitterBuffer P)
  | .datagram data arrivalSamples => do
    match ← parse P.byteOrder data with
    | some parsed =>
      let jb ← push jb {
        sequenceNumber := parsed.header.sequenceNumber
        rtpTimestamp := parsed.header.timestamp
        payloadType := parsed.header.payloadType
        payload := parsed.payload } arrivalSamples
      return (none, jb)
    | none => return (none, jb)
  | .pull nowSamples => do
    let (due, out, jb) ← tryPullDueFrame jb nowSamples (Cells.uninit I16 kFrameSamples)
    return (if due then some out else none, jb)
  | .idle => return (none, jb.markStreamEnded)

/-- The events one after another, with the output buffers of the successful pulls. -/
def receiveAll (jb : JitterBuffer P) : List ReceiverEvent → Option (List OutBuffer × JitterBuffer P)
  | [] => some ([], jb)
  | event :: events => do
    let (out, jb) ← receive jb event
    let (outs, jb) ← receiveAll jb events
    return (out.toList ++ outs, jb)

end Checked

/-- The call an event makes on the jitter buffer; a malformed datagram makes none. -/
def ReceiverEvent.call (order : ByteOrder) : ReceiverEvent → Option Call
  | .datagram data arrivalSamples =>
    (parse order data).map fun parsed => .push {
      sequenceNumber := parsed.header.sequenceNumber
      rtpTimestamp := parsed.header.timestamp
      payloadType := parsed.header.payloadType
      payload := parsed.payload } arrivalSamples
  | .pull nowSamples => some (.pull nowSamples)
  | .idle => some .markStreamEnded

end RtpStreamer
