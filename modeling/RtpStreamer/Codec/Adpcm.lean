import RtpStreamer.Platform

/-!
# IMA ADPCM

`codec_adpcm.cpp`. Each sample's 4-bit code depends on the running predictor and step index; the
state at the start of a frame travels in a 4-byte header in front of the frame's codes.
-/

namespace RtpStreamer

/-- The 89 step sizes. -/
def kStepTable : Vector Int 89 := #v[
  7,     8,     9,     10,    11,    12,    13,    14,    16,    17,
  19,    21,    23,    25,    28,    31,    34,    37,    41,    45,
  50,    55,    60,    66,    73,    80,    88,    97,    107,   118,
  130,   143,   157,   173,   190,   209,   230,   253,   279,   307,
  337,   371,   408,   449,   494,   544,   598,   658,   724,   796,
  876,   963,   1060,  1166,  1282,  1411,  1552,  1707,  1878,  2066,
  2272,  2499,  2749,  3024,  3327,  3660,  4026,  4428,  4871,  5358,
  5894,  6484,  7132,  7845,  8630,  9493,  10442, 11487, 12635, 13899,
  15289, 16818, 18500, 20350, 22385, 24623, 27086, 29794, 32767]

/-- The step index adjustment of each code. -/
def kIndexTable : Vector Int 16 := #v[
  -1, -1, -1, -1, 2, 4, 6, 8,
  -1, -1, -1, -1, 2, 4, 6, 8]

/-- A 4-bit code: one sign bit and three magnitude bits. The source keeps it in a `uint8_t`. -/
abbrev Code := BitVec 4

/-- The codec state. The step index is always a valid index into `kStepTable`. -/
@[ext] structure AdpcmState where
  predictor : I16 := 0
  stepIndex : U8 := 0
  stepIndex_le : stepIndex.toNat ≤ 88 := by decide

/-- `kStepTable[state.step_index]`. -/
def AdpcmState.step (state : AdpcmState) : Int :=
  kStepTable.get ⟨state.stepIndex.toNat, Nat.lt_succ_of_le state.stepIndex_le⟩

def clampStepIndex (index : Int) : Int :=
  if index < 0 then 0 else if index > 88 then 88 else index

def clampPredictor (value : Int) : Int :=
  if value < -32768 then -32768 else if value > 32767 then 32767 else value

theorem clampStepIndex_bounds (index : Int) :
    0 ≤ clampStepIndex index ∧ clampStepIndex index ≤ 88 := by
  unfold clampStepIndex
  split_ifs <;> omega

theorem clampPredictor_bounds (value : Int) :
    -32768 ≤ clampPredictor value ∧ clampPredictor value ≤ 32767 := by
  unfold clampPredictor
  split_ifs <;> omega

/-- The clamped step index survives the cast to `uint8_t`. -/
theorem ofInt_clampStepIndex_toNat (index : Int) :
    ((BitVec.ofInt 8 (clampStepIndex index)).toNat : Int) = clampStepIndex index := by
  have h := clampStepIndex_bounds index
  rw [BitVec.toNat_ofInt]
  omega

/-- The clamped predictor survives the cast to `int16_t`. -/
theorem ofInt_clampPredictor_toInt (value : Int) :
    (BitVec.ofInt 16 (clampPredictor value)).toInt = clampPredictor value := by
  have h := clampPredictor_bounds value
  rw [BitVec.toInt_ofInt, Int.bmod_eq_of_le] <;> omega

/-- The three lines that end both `encode_sample` and `decode_sample`: move the predictor by the
quantized difference and adapt the step index. -/
def AdpcmState.advance (state : AdpcmState) (code : Code) (diffq : Int) : AdpcmState where
  predictor := BitVec.ofInt 16
    (clampPredictor (state.predictor.toInt + if code &&& 0x8 ≠ 0 then -diffq else diffq))
  stepIndex := BitVec.ofInt 8
    (clampStepIndex (state.stepIndex.toNat + kIndexTable.get code.toFin))
  stepIndex_le := by
    have h := (clampStepIndex_bounds (state.stepIndex.toNat + kIndexTable.get code.toFin)).2
    rw [← ofInt_clampStepIndex_toNat] at h
    exact_mod_cast h

/-- The running values of the greedy quantizer of `encode_sample`. -/
structure Quantizer where
  code : Code
  diff : Int
  diffq : Int

/-- `if (diff >= half_step) { code |= bit; diff -= half_step; diffq += half_step; }`. The source
leaves out the last update of `diff`, which nothing reads. -/
def Quantizer.bit (q : Quantizer) (bit : Code) (halfStep : Int) : Quantizer :=
  if q.diff ≥ halfStep then
    { code := q.code ||| bit, diff := q.diff - halfStep, diffq := q.diffq + halfStep }
  else q

/-- The quantizer loop of `encode_sample`, unrolled as in the source. -/
def quantize (step diff : Int) : Quantizer :=
  let q : Quantizer :=
    if diff < 0 then { code := 0x8, diff := -diff, diffq := step >>> (3 : Nat) }
    else { code := 0, diff := diff, diffq := step >>> (3 : Nat) }
  let halfStep := step
  let q := q.bit 0x4 halfStep
  let halfStep := halfStep >>> (1 : Nat)
  let q := q.bit 0x2 halfStep
  let halfStep := halfStep >>> (1 : Nat)
  q.bit 0x1 halfStep

def encodeSample (sample : I16) (state : AdpcmState) : Code × AdpcmState :=
  let q := quantize state.step (sample.toInt - state.predictor.toInt)
  (q.code, state.advance q.code q.diffq)

/-- The quantized difference a code stands for at the given step. -/
def codeDiffq (step : Int) (code : Code) : Int :=
  let diffq := step >>> (3 : Nat)
  let diffq := if code &&& 0x4 ≠ 0 then diffq + step else diffq
  let diffq := if code &&& 0x2 ≠ 0 then diffq + step >>> (1 : Nat) else diffq
  if code &&& 0x1 ≠ 0 then diffq + step >>> (2 : Nat) else diffq

def decodeSample (code : Code) (state : AdpcmState) : I16 × AdpcmState :=
  let state := state.advance code (codeDiffq state.step code)
  (state.predictor, state)

/-- Packs two codes a byte, low nibble first; an odd last sample leaves the high nibble zero. -/
def adpcmEncodeFrame : (pcm : List I16) → AdpcmState → List U8 × AdpcmState
  | [], state => ([], state)
  | [sample], state =>
    let (low, state) := encodeSample sample state
    ([low.setWidth 8], state)
  | sample :: sample' :: pcm, state =>
    let (low, state) := encodeSample sample state
    let (high, state) := encodeSample sample' state
    let (out, state) := adpcmEncodeFrame pcm state
    ((low.setWidth 8 ||| (high.setWidth 8 <<< 4)) :: out, state)

/-- `byte & 0x0F`. -/
def lowNibble (byte : U8) : Code := (byte &&& 0x0F).setWidth 4

/-- `(byte >> 4) & 0x0F`. -/
def highNibble (byte : U8) : Code := ((byte >>> 4) &&& 0x0F).setWidth 4

/-- Decodes `numSamples` samples. A frame never asks for more samples than its bytes hold, so the
case of an exhausted `packed` is not reached. -/
def adpcmDecodeFrame : (packed : List U8) → (numSamples : Nat) → AdpcmState → List I16 × AdpcmState
  | _, 0, state => ([], state)
  | [], _ + 1, state => ([], state)
  | byte :: _, 1, state =>
    let (sample, state) := decodeSample (lowNibble byte) state
    ([sample], state)
  | byte :: packed, numSamples + 2, state =>
    let (sample, state) := decodeSample (lowNibble byte) state
    let (sample', state) := decodeSample (highNibble byte) state
    let (out, state) := adpcmDecodeFrame packed numSamples state
    (sample :: sample' :: out, state)

/-- Bytes of the state header in front of an ADPCM payload. -/
def kAdpcmStateHeaderBytes : Nat := 4

def packAdpcmState (state : AdpcmState) : Vector U8 kAdpcmStateHeaderBytes :=
  #v[(state.predictor >>> 8).setWidth 8, (state.predictor &&& 0xFF).setWidth 8, state.stepIndex, 0]

/-- Rebuilds the state from the header; byte 3 is reserved. An out-of-range step index is clamped. -/
def unpackAdpcmState (header : Vector U8 kAdpcmStateHeaderBytes) : AdpcmState where
  predictor := (header[0].setWidth 16 <<< 8) ||| header[1].setWidth 16
  stepIndex := if header[2].toNat > 88 then 88 else header[2]
  stepIndex_le := by
    split_ifs with h
    · decide
    · omega

/-! ## A coding session

An encoder codes frame after frame, and writes the state as it stood before each frame into that
frame's header.
-/

/-- One ADPCM frame on the wire, with the number of samples it stands for. -/
structure AdpcmFrame where
  header : Vector U8 kAdpcmStateHeaderBytes
  packed : List U8
  numSamples : Nat

/-- The frame the encoder sends for `pcm` in `state`. -/
def encodeFrame (state : AdpcmState) (pcm : List I16) : AdpcmFrame where
  header := packAdpcmState state
  packed := (adpcmEncodeFrame pcm state).1
  numSamples := pcm.length

/-- The frames of a session that starts in `state`. -/
def encodeSession : AdpcmState → List (List I16) → List AdpcmFrame
  | _, [] => []
  | state, pcm :: frames =>
    encodeFrame state pcm :: encodeSession (adpcmEncodeFrame pcm state).2 frames

/-- The encoder's state after coding all of `frames`. -/
def encoderState (state : AdpcmState) (frames : List (List I16)) : AdpcmState :=
  frames.foldl (fun state pcm => (adpcmEncodeFrame pcm state).2) state

/-- The predictor the encoder holds after each sample: the signal the codec reconstructs. -/
def predictorTrace : AdpcmState → List I16 → List I16
  | _, [] => []
  | state, sample :: pcm =>
    (encodeSample sample state).2.predictor :: predictorTrace (encodeSample sample state).2 pcm

/-- Decodes one frame from its own header, as the receiver does. -/
def decodeAlone (frame : AdpcmFrame) : List I16 × AdpcmState :=
  adpcmDecodeFrame frame.packed frame.numSamples (unpackAdpcmState frame.header)

/-- Decodes a session in which every frame arrived, carrying the state in memory. -/
def decodeContinuous : AdpcmState → List AdpcmFrame → List (List I16)
  | _, [] => []
  | state, frame :: frames =>
    (adpcmDecodeFrame frame.packed frame.numSamples state).1 ::
      decodeContinuous (adpcmDecodeFrame frame.packed frame.numSamples state).2 frames

end RtpStreamer
