import RtpStreamer.Memory.CheckedMemory
import RtpStreamer.Wav.Wav

/-!
# The WAV reader with checked accesses and counted rounds

`read` once more, now as the source accesses memory: every byte of a chunk is read at a checked index,
the samples are written one by one, the distance to skip is a signed 64-bit `long`, and the loop is given
a number of rounds. A function returns `none` where the source would access an array out of range or
start a round beyond that number.
-/

namespace RtpStreamer

namespace Wav

open CheckedMemory

namespace Checked

def readU32le (p : List U8) (i : Nat) : Option U32 := do
  let p0 ← p[i]?
  let p1 ← p[i + 1]?
  let p2 ← p[i + 2]?
  let p3 ← p[i + 3]?
  return joinU32 p3 p2 p1 p0

def readU16le (p : List U8) (i : Nat) : Option U16 := do
  let p0 ← p[i]?
  let p1 ← p[i + 1]?
  return joinU16 p1 p0

/-- The branch for a fmt chunk. -/
def readFmt (path : String) (file : List U8) (st : ReadState) (chunkSize : U32) :
    Option (Except String ReadState) := do
  let fmt := fread file st.position chunkSize.toNat
  if chunkSize < 16 then return .error (message path "fmt chunk too small")
  if fmt.length ≠ chunkSize.toNat then return .error (message path "truncated fmt chunk")
  let audioFormat ← readU16le fmt 0
  let numChannels ← readU16le fmt 2
  let sampleRate ← readU32le fmt 4
  let bitsPerSample ← readU16le fmt 14
  if audioFormat ≠ 1 then
    return .error (message path "not PCM (only uncompressed PCM is supported)")
  return .ok { st with
    position := st.position + chunkSize.toNat
    result := { st.result with
      numChannels := numChannels
      sampleRate := sampleRate
      bitsPerSample := bitsPerSample }
    haveFmt := true }

/-- `result.samples[i] = static_cast<int16_t>(read_u16le(raw.data() + i * 2))`. -/
def sampleRound {n : Nat} (raw : List U8) (i : Nat) (samples : Cells I16 n) :
    Option (Cells I16 n) := do
  let sample ← readU16le raw (i * 2)
  samples.write i sample

/-- The samples of a chunk of `n * 2` bytes or one more, after `resize(n)`. -/
def samplesOf (raw : List U8) (n : Nat) : Option (List I16) := do
  let samples ← forUp (sampleRound raw) n 0 (Vector.replicate n (some 0) : Cells I16 n)
  let samples ← samples.contents
  return samples.toList

/-- The branch for a data chunk. -/
def readData (path : String) (file : List U8) (st : ReadState) (chunkSize : U32) :
    Option (Except String ReadState) := do
  let raw := fread file st.position chunkSize.toNat
  if !st.haveFmt then return .error (message path "data chunk before fmt chunk")
  if chunkSize > 0 ∧ raw.length ≠ chunkSize.toNat then
    return .error (message path "truncated data chunk")
  let samples ← samplesOf raw (chunkSize.toNat / 2)
  return .ok { st with
    position := st.position + chunkSize.toNat
    result := { st.result with samples := samples }
    haveData := true }

/-- `static_cast<long>(chunk_size + (chunk_size % 2))`. -/
def skipDistance (chunkSize : U32) : Int := ((chunkSize + chunkSize % 2).setWidth 64).toInt

/-- `fseek` from the current position: it fails in front of the file and nowhere else. -/
def fseek (position : Nat) (offset : Int) : Option Nat :=
  if 0 ≤ position + offset then some (position + offset).toNat else none

/-- The branch for all other chunks. -/
def skipChunk (path : String) (st : ReadState) (chunkSize : U32) : Except String ReadState :=
  match fseek st.position (skipDistance chunkSize) with
  | none => .error (message path "truncated file while skipping chunk")
  | some position => .ok { st with position := position }

/-- One round of the loop. -/
def readChunk (path : String) (file : List U8) (st : ReadState) :
    Option (Except String (Option ReadState)) := do
  let chunkHeader := fread file st.position 8
  if chunkHeader.length ≠ 8 then return .ok none
  let chunkSize ← readU32le chunkHeader 4
  let st := { st with position := st.position + 8 }
  if chunkHeader.take 4 = fmtId then
    let next ← readFmt path file st chunkSize
    return next.map some
  else if chunkHeader.take 4 = dataId then
    let next ← readData path file st chunkSize
    return next.map some
  else return (skipChunk path st chunkSize).map some

/-- `while (!have_data)`, for at most the given number of rounds. -/
def readLoop (path : String) (file : List U8) : (rounds : Nat) → ReadState →
    Option (Except String ReadState)
  | 0, st => if st.haveData then some (.ok st) else none
  | rounds + 1, st =>
    if st.haveData then some (.ok st)
    else do
      match ← readChunk path file st with
      | .error reason => return .error reason
      | .ok none => return .ok st
      | .ok (some st') => readLoop path file rounds st'

/-- `read` of a file that opens. -/
def read (rounds : Nat) (path : String) (file : List U8) : Option (Except String WavData) :=
  if !opensRiff file then some (.error (message path "not a RIFF/WAVE file"))
  else (readLoop path file rounds { position := 12 }).map (·.bind (checkFormat path))

end Checked

end Wav

end RtpStreamer
