import RtpStreamer.Packet.RtpPacket

/-!
# WAV files

`wav.cpp`: writing a mono 16-bit file, and the reader that walks the chunks of a RIFF file. A file is the
list of its bytes and the position of its stream; `fseek` past the end succeeds, so the error branch
behind it is never taken. Memory for a chunk of any 32-bit size can be allocated.
-/

namespace RtpStreamer

def kChannels : Nat := 1

def kBitsPerSample : Nat := 16

namespace Wav

structure WavData where
  sampleRate : U32 := 0
  numChannels : U16 := 0
  bitsPerSample : U16 := 0
  samples : List I16 := []
  deriving DecidableEq

def riffId : List U8 := [0x52, 0x49, 0x46, 0x46]

def waveId : List U8 := [0x57, 0x41, 0x56, 0x45]

def fmtId : List U8 := [0x66, 0x6D, 0x74, 0x20]

def dataId : List U8 := [0x64, 0x61, 0x74, 0x61]

def writeU32le (v : U32) : List U8 :=
  [v.setWidth 8, (v >>> 8).setWidth 8, (v >>> 16).setWidth 8, (v >>> 24).setWidth 8]

def writeU16le (v : U16) : List U8 := [v.setWidth 8, (v >>> 8).setWidth 8]

/-- The double word at `p + i`. -/
def readU32le (p : List U8) (i : Nat) : U32 :=
  joinU32 (p.getD (i + 3) 0) (p.getD (i + 2) 0) (p.getD (i + 1) 0) (p.getD i 0)

/-- The word at `p + i`. -/
def readU16le (p : List U8) (i : Nat) : U16 := joinU16 (p.getD (i + 1) 0) (p.getD i 0)

/-- What the exception of `fail` says. -/
def message (path reason : String) : String := "wav: " ++ path ++ ": " ++ reason

/-! ## Writing -/

/-- The bytes that `write` leaves in the file. -/
def writtenBytes (sampleRate : U32) (samples : List I16) : List U8 :=
  let numChannels : U16 := BitVec.ofNat 16 kChannels
  let bitsPerSample : U16 := BitVec.ofNat 16 kBitsPerSample
  let blockAlign : U16 := BitVec.ofNat 16 (numChannels.toNat * bitsPerSample.toNat / 8)
  let byteRate : U32 := sampleRate * blockAlign.setWidth 32
  let dataBytes : U32 := BitVec.ofNat 32 (samples.length * 2)
  riffId ++ writeU32le (36 + dataBytes) ++ waveId ++
    fmtId ++ writeU32le 16 ++ writeU16le 1 ++ writeU16le numChannels ++ writeU32le sampleRate ++
    writeU32le byteRate ++ writeU16le blockAlign ++ writeU16le bitsPerSample ++
    dataId ++ writeU32le dataBytes ++ samples.flatMap writeU16le

/-- `write`; `opened` tells whether `fopen` succeeds. -/
def write (path : String) (opened : Bool) (sampleRate : U32) (samples : List I16) :
    Except String (List U8) :=
  if opened then .ok (writtenBytes sampleRate samples)
  else .error (message path "cannot open for writing")

/-! ## Reading -/

/-- The bytes that `fread` finds at a position. -/
def fread (file : List U8) (position n : Nat) : List U8 := (file.drop position).take n

structure ReadState where
  position : Nat
  result : WavData := {}
  haveFmt : Bool := false
  haveData : Bool := false

/-- The fields that a fmt chunk sets. -/
def WavData.setFormat (result : WavData) (fmt : List U8) : WavData :=
  { result with
    numChannels := readU16le fmt 2
    sampleRate := readU32le fmt 4
    bitsPerSample := readU16le fmt 14 }

/-- The samples of the body of a data chunk. -/
def samplesOf (raw : List U8) : List I16 :=
  (List.range (raw.length / 2)).map fun i => readU16le raw (i * 2)

/-- The branch of the loop for a fmt chunk, whose header has been read. -/
def readFmt (path : String) (file : List U8) (st : ReadState) (chunkSize : U32) :
    Except String ReadState :=
  let fmt := fread file st.position chunkSize.toNat
  if chunkSize < 16 then .error (message path "fmt chunk too small")
  else if fmt.length ≠ chunkSize.toNat then .error (message path "truncated fmt chunk")
  else if readU16le fmt 0 ≠ 1 then
    .error (message path "not PCM (only uncompressed PCM is supported)")
  else .ok { st with
    position := st.position + chunkSize.toNat
    result := st.result.setFormat fmt
    haveFmt := true }

/-- The branch for a data chunk. -/
def readData (path : String) (file : List U8) (st : ReadState) (chunkSize : U32) :
    Except String ReadState :=
  let raw := fread file st.position chunkSize.toNat
  if !st.haveFmt then .error (message path "data chunk before fmt chunk")
  else if chunkSize > 0 ∧ raw.length ≠ chunkSize.toNat then
    .error (message path "truncated data chunk")
  else .ok { st with
    position := st.position + chunkSize.toNat
    result := { st.result with samples := samplesOf raw }
    haveData := true }

/-- The branch for all other chunks; the size to skip is computed in 32 bits. -/
def skipChunk (st : ReadState) (chunkSize : U32) : ReadState :=
  { st with position := st.position + (chunkSize + chunkSize % 2).toNat }

/-- One round of the loop; `none` is the `break` at the end of the file. -/
def readChunk (path : String) (file : List U8) (st : ReadState) : Except String (Option ReadState) :=
  let chunkHeader := fread file st.position 8
  if chunkHeader.length ≠ 8 then .ok none
  else
    let chunkSize := readU32le chunkHeader 4
    let st := { st with position := st.position + 8 }
    if chunkHeader.take 4 = fmtId then (readFmt path file st chunkSize).map some
    else if chunkHeader.take 4 = dataId then (readData path file st chunkSize).map some
    else .ok (some (skipChunk st chunkSize))

/-! ## What a round does -/

/-- The state once the header of a chunk has been read. -/
def ReadState.pastHeader (st : ReadState) : ReadState := { st with position := st.position + 8 }

theorem readFmt_ok_iff {path : String} {file : List U8} {st st' : ReadState} {chunkSize : U32} :
    readFmt path file st chunkSize = .ok st' ↔
      16 ≤ chunkSize.toNat ∧ (fread file st.position chunkSize.toNat).length = chunkSize.toNat ∧
      readU16le (fread file st.position chunkSize.toNat) 0 = 1 ∧
      st' = { st with
        position := st.position + chunkSize.toNat
        result := st.result.setFormat (fread file st.position chunkSize.toNat)
        haveFmt := true } := by
  have hlt : chunkSize < 16 ↔ ¬ 16 ≤ chunkSize.toNat := Nat.not_le.symm
  unfold readFmt
  by_cases hsize : 16 ≤ chunkSize.toNat
  · by_cases hlen : (fread file st.position chunkSize.toNat).length = chunkSize.toNat
    · by_cases hpcm : readU16le (fread file st.position chunkSize.toNat) 0 = 1
      · simp only [hlt, hsize, hlen, hpcm, ne_eq, not_true_eq_false, if_false, Except.ok.injEq,
          true_and, eq_comm]
      · simp only [hlt, hsize, hlen, hpcm, ne_eq, not_true_eq_false, not_false_eq_true, if_false,
          if_true, reduceCtorEq, false_and, and_false]
    · simp only [hlt, hsize, hlen, ne_eq, not_true_eq_false, not_false_eq_true, if_false, if_true,
        reduceCtorEq, false_and, and_false]
  · simp only [hlt, hsize, not_false_eq_true, if_true, reduceCtorEq, false_and]

/-- Nothing is read of an empty chunk, so its length is right as well. -/
theorem cut_iff (file : List U8) (position : Nat) (chunkSize : U32) :
    chunkSize > 0 ∧ (fread file position chunkSize.toNat).length ≠ chunkSize.toNat ↔
      (fread file position chunkSize.toNat).length ≠ chunkSize.toNat := by
  refine ⟨And.right, fun hne => ⟨?_, hne⟩⟩
  by_contra hzero
  have hle : chunkSize.toNat ≤ 0 := BitVec.not_lt.mp hzero
  rw [Nat.le_zero.mp hle] at hne
  exact hne rfl

theorem readData_ok_iff {path : String} {file : List U8} {st st' : ReadState} {chunkSize : U32} :
    readData path file st chunkSize = .ok st' ↔
      st.haveFmt = true ∧ (fread file st.position chunkSize.toNat).length = chunkSize.toNat ∧
      st' = { st with
        position := st.position + chunkSize.toNat
        result := { st.result with samples := samplesOf (fread file st.position chunkSize.toNat) }
        haveData := true } := by
  unfold readData
  simp only [cut_iff]
  cases st.haveFmt with
  | false => simp only [Bool.not_false, if_true, reduceCtorEq, Bool.false_eq_true, false_and]
  | true =>
    by_cases hlen : (fread file st.position chunkSize.toNat).length = chunkSize.toNat
    · simp only [hlen, Bool.not_true, Bool.false_eq_true, ne_eq, not_true_eq_false, if_false,
        Except.ok.injEq, true_and, eq_comm]
    · simp only [hlen, Bool.not_true, Bool.false_eq_true, ne_eq, not_false_eq_true, if_false,
        if_true, reduceCtorEq, false_and, and_false]

theorem map_some_ok_iff {x : Except String ReadState} {st : ReadState} :
    x.map some = .ok (some st) ↔ x = .ok st := by
  cases x with
  | error reason => simp only [Except.map, reduceCtorEq]
  | ok st' => simp only [Except.map, Except.ok.injEq, Option.some.injEq]

/-- The rounds that go on to another one. -/
theorem readChunk_some_iff {path : String} {file chunkHeader : List U8} {st st' : ReadState}
    (hheader : fread file st.position 8 = chunkHeader) :
    readChunk path file st = .ok (some st') ↔ chunkHeader.length = 8 ∧
      (chunkHeader.take 4 = fmtId ∧
          readFmt path file st.pastHeader (readU32le chunkHeader 4) = .ok st' ∨
        chunkHeader.take 4 = dataId ∧
          readData path file st.pastHeader (readU32le chunkHeader 4) = .ok st' ∨
        chunkHeader.take 4 ≠ fmtId ∧ chunkHeader.take 4 ≠ dataId ∧
          st' = skipChunk st.pastHeader (readU32le chunkHeader 4)) := by
  have hids : fmtId ≠ dataId := by decide
  unfold readChunk
  rw [hheader]
  by_cases hlen : chunkHeader.length = 8
  · rw [if_neg (not_not.mpr hlen)]
    dsimp only
    by_cases hfmt : chunkHeader.take 4 = fmtId
    · rw [if_pos hfmt, map_some_ok_iff]
      simp only [hlen, hfmt, hids, true_and, false_and, or_false, ne_eq, not_true_eq_false]
      rfl
    · rw [if_neg hfmt]
      by_cases hdata : chunkHeader.take 4 = dataId
      · rw [if_pos hdata, map_some_ok_iff]
        simp only [hlen, hdata, hids.symm, true_and, false_and, false_or, or_false, ne_eq,
          not_true_eq_false, and_false]
        rfl
      · rw [if_neg hdata]
        simp only [hlen, hfmt, hdata, true_and, false_and, false_or, ne_eq, not_false_eq_true,
          Except.ok.injEq, Option.some.injEq]
        exact eq_comm
  · simp only [hlen, ne_eq, not_false_eq_true, if_true, Except.ok.injEq, reduceCtorEq, false_and]

/-- A round that goes on has read a header, and leaves the stream behind it. -/
theorem readChunk_moves {path : String} {file : List U8} {st st' : ReadState}
    (h : readChunk path file st = .ok (some st')) :
    st.position + 8 ≤ file.length ∧ st.position + 8 ≤ st'.position := by
  obtain ⟨hlen, hcases⟩ := (readChunk_some_iff rfl).mp h
  have hfile : st.position + 8 ≤ file.length := by
    rw [fread, List.length_take, List.length_drop] at hlen
    omega
  refine ⟨hfile, ?_⟩
  rcases hcases with ⟨_, hfmt⟩ | ⟨_, hdata⟩ | ⟨_, _, rfl⟩
  · obtain ⟨_, _, _, rfl⟩ := readFmt_ok_iff.mp hfmt
    exact Nat.le_add_right _ _
  · obtain ⟨_, _, rfl⟩ := readData_ok_iff.mp hdata
    exact Nat.le_add_right _ _
  · exact Nat.le_add_right _ _

/-! ## The loop -/

/-- `while (!have_data)`. -/
def readLoop (path : String) (file : List U8) (st : ReadState) : Except String ReadState :=
  if st.haveData then .ok st
  else match _round : readChunk path file st with
    | .error reason => .error reason
    | .ok none => .ok st
    | .ok (some st') => readLoop path file st'
termination_by file.length - st.position
decreasing_by
  have hmoves := readChunk_moves ‹readChunk path file st = .ok (some st')›
  omega

/-- The checks behind the loop. -/
def checkFormat (path : String) (st : ReadState) : Except String WavData :=
  if !st.haveFmt || !st.haveData then .error (message path "missing fmt or data chunk")
  else if st.result.numChannels ≠ BitVec.ofNat 16 kChannels then
    .error (message path "only mono WAV files are supported")
  else if st.result.bitsPerSample ≠ BitVec.ofNat 16 kBitsPerSample then
    .error (message path "only 16-bit PCM WAV files are supported")
  else .ok st.result

/-- Whether the file opens with the header of a RIFF/WAVE file. -/
def opensRiff (file : List U8) : Bool :=
  let header := fread file 0 12
  header.length == 12 && header.take 4 == riffId && header.drop 8 == waveId

/-- `read`; the file is `none` when `fopen` fails. -/
def read (path : String) : Option (List U8) → Except String WavData
  | none => .error (message path "cannot open for reading")
  | some file =>
    if !opensRiff file then .error (message path "not a RIFF/WAVE file")
    else (readLoop path file { position := 12 }).bind (checkFormat path)

end Wav

end RtpStreamer
