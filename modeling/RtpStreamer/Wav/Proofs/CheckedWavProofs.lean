import RtpStreamer.Wav.CheckedWav
import RtpStreamer.Wav.Proofs.ReaderProofs

/-!
# The WAV reader ends, in range

Every round of the checked reader returns what the round of the reader returns, so no access is out of
range; and a round that goes on leaves the stream at least 8 bytes farther, so the rounds can be counted
from the length of the file.
-/

namespace RtpStreamer

namespace Wav

open CheckedMemory

namespace Checked

/-! ## Fields -/

theorem readU16le_eq {p : List U8} {i : Nat} (h : i + 1 < p.length) :
    readU16le p i = some (Wav.readU16le p i) := by
  simp only [readU16le, Wav.readU16le, List.getElem?_eq_getElem h,
    List.getElem?_eq_getElem (Nat.lt_of_succ_lt h), List.getD_eq_getElem _ _ h,
    List.getD_eq_getElem _ _ (Nat.lt_of_succ_lt h)]
  rfl

theorem readU32le_eq {p : List U8} {i : Nat} (h : i + 3 < p.length) :
    readU32le p i = some (Wav.readU32le p i) := by
  have h2 : i + 2 < p.length := by omega
  have h1 : i + 1 < p.length := by omega
  have h0 : i < p.length := by omega
  simp only [readU32le, Wav.readU32le, List.getElem?_eq_getElem h, List.getElem?_eq_getElem h2,
    List.getElem?_eq_getElem h1, List.getElem?_eq_getElem h0, List.getD_eq_getElem _ _ h,
    List.getD_eq_getElem _ _ h2, List.getD_eq_getElem _ _ h1, List.getD_eq_getElem _ _ h0]
  rfl

/-! ## Branches -/

/-- A fmt chunk that was read whole holds its fields. -/
theorem readFmt_eq (path : String) (file : List U8) (st : ReadState) (chunkSize : U32) :
    readFmt path file st chunkSize = some (Wav.readFmt path file st chunkSize) := by
  unfold readFmt Wav.readFmt
  by_cases hsize : chunkSize < 16
  · simp only [if_pos hsize]
    rfl
  · by_cases hlen : (fread file st.position chunkSize.toNat).length = chunkSize.toNat
    · have hsixteen : 16 ≤ chunkSize.toNat := Nat.not_lt.mp hsize
      simp only [if_neg hsize, hlen, ne_eq, not_true_eq_false, if_false]
      rw [readU16le_eq (by omega), readU16le_eq (by omega), readU32le_eq (by omega),
        readU16le_eq (by omega)]
      by_cases hpcm : Wav.readU16le (fread file st.position chunkSize.toNat) 0 = 1
      · simp only [hpcm, not_true_eq_false, if_false, Option.bind_eq_bind, Option.bind_some]
        rfl
      · simp only [hpcm, not_false_eq_true, if_true, Option.bind_eq_bind, Option.bind_some]
        rfl
    · simp only [if_neg hsize, hlen, ne_eq, not_false_eq_true, if_true]
      rfl

/-- The samples of a chunk lie in its bytes. -/
theorem samplesOf_eq {raw : List U8} {n : Nat} (h : raw.length / 2 = n) :
    samplesOf raw n = some (Wav.samplesOf raw) := by
  have hbody (i : Nat) (samples : Cells I16 n) (hi : i < n) :
      sampleRound raw i samples = samples.write i (Wav.readU16le raw (i * 2)) := by
    rw [sampleRound, readU16le_eq (by omega)]
    rfl
  obtain ⟨samples, hloop, hfilled⟩ := fill_spec (n := n) (fun i => Wav.readU16le raw (i * 2))
    (sampleRound raw) 0 n (Nat.zero_add n).le (fun i samples _ hi => hbody i samples (by omega))
    (Cells.filled_zero _ (Vector.replicate n (some 0)))
  rw [Nat.zero_add] at hfilled
  have hsamples : samples =
      (Vector.ofFn fun i : Fin n => Wav.readU16le raw (i * 2)).map some := by
    rw [hfilled.eq_ofFn]
    ext1 i hi
    simp only [Vector.getElem_ofFn, Vector.getElem_map]
  have hlist : (Vector.ofFn fun i : Fin n => Wav.readU16le raw (i * 2)).toList =
      Wav.samplesOf raw := by
    apply List.ext_getElem
    · rw [Vector.length_toList, Wav.samplesOf, List.length_map, List.length_range, h]
    · intro i h1 h2
      simp only [Wav.samplesOf, Vector.getElem_toList, Vector.getElem_ofFn, List.getElem_map,
        List.getElem_range]
  simp only [samplesOf, hloop, Option.bind_eq_bind, Option.bind_some, hsamples,
    Cells.contents_map_some, hlist]
  rfl

theorem readData_eq (path : String) (file : List U8) (st : ReadState) (chunkSize : U32) :
    readData path file st chunkSize = some (Wav.readData path file st chunkSize) := by
  unfold readData Wav.readData
  simp only [cut_iff]
  cases st.haveFmt with
  | false => rfl
  | true =>
    by_cases hlen : (fread file st.position chunkSize.toNat).length = chunkSize.toNat
    · simp only [hlen, Bool.not_true, Bool.false_eq_true, ne_eq, not_true_eq_false, if_false,
        samplesOf_eq (congrArg (· / 2) hlen)]
      rfl
    · simp only [hlen, Bool.not_true, Bool.false_eq_true, ne_eq, not_false_eq_true, if_true, if_false]
      rfl

/-- The distance to skip fits in a `long`, so it is not negative. -/
theorem skipDistance_eq (chunkSize : U32) :
    skipDistance chunkSize = (chunkSize + chunkSize % 2).toNat := by
  have hlt := (chunkSize + chunkSize % 2).isLt
  rw [skipDistance, BitVec.toInt_eq_toNat_of_lt, BitVec.toNat_setWidth, Nat.mod_eq_of_lt (by omega)]
  rw [BitVec.toNat_setWidth]
  omega

theorem skipChunk_eq (path : String) (st : ReadState) (chunkSize : U32) :
    skipChunk path st chunkSize = .ok (Wav.skipChunk st chunkSize) := by
  have hseek : fseek st.position (skipDistance chunkSize) =
      some (st.position + (chunkSize + chunkSize % 2).toNat) := by
    rw [fseek, skipDistance_eq, if_pos (by omega)]
    congr 1
  rw [skipChunk, hseek]
  rfl

/-! ## Rounds -/

theorem readChunk_eq (path : String) (file : List U8) (st : ReadState) :
    readChunk path file st = some (Wav.readChunk path file st) := by
  unfold readChunk Wav.readChunk
  by_cases hlen : (fread file st.position 8).length = 8
  · simp only [hlen, ne_eq, not_true_eq_false, if_false]
    rw [readU32le_eq (by omega)]
    simp only [Option.bind_eq_bind, Option.bind_some, readFmt_eq, readData_eq, skipChunk_eq]
    split_ifs <;> rfl
  · simp only [hlen, ne_eq, not_false_eq_true, if_true]
    rfl

/-- A round for every 8 bytes that are left, and one more, are enough. -/
theorem readLoop_eq (path : String) (file : List U8) (rounds : Nat) :
    ∀ st : ReadState, (file.length - st.position) / 8 + 1 ≤ rounds →
      readLoop path file rounds st = some (Wav.readLoop path file st) := by
  induction rounds with
  | zero => exact fun _ h => absurd h (Nat.not_succ_le_zero _)
  | succ rounds ih =>
    intro st hrounds
    unfold readLoop
    by_cases hdata : st.haveData = true
    · rw [if_pos hdata, readLoop_done hdata]
    · rw [if_neg hdata, readChunk_eq]
      have hdata := Bool.eq_false_of_not_eq_true hdata
      cases hround : Wav.readChunk path file st with
      | error reason =>
        rw [readLoop_error hdata hround]
        rfl
      | ok next =>
        cases next with
        | none =>
          rw [readLoop_break hdata hround]
          rfl
        | some st' =>
          obtain ⟨hfile, hmoves⟩ := readChunk_moves hround
          rw [readLoop_next ⟨hdata, hround⟩]
          exact ih st' (by omega)

end Checked

/-- **Termination of the reader.** A round that goes on leaves the stream at least 8 bytes farther, no
seek goes backwards, and a round for every 8 bytes behind the header and one more suffice for every file:
the reader returns what it returns without a bound, without an access out of range. -/
theorem read_terminates (path : String) (file : List U8) :
    (∀ st st' : ReadState, Checked.readChunk path file st = some (.ok (some st')) →
      st.position + 8 ≤ st'.position) ∧
    (∀ chunkSize : U32, 0 ≤ Checked.skipDistance chunkSize) ∧
    ∀ rounds : Nat, (file.length - 12) / 8 + 1 ≤ rounds →
      Checked.read rounds path file = some (read path (some file)) := by
  refine ⟨?_, ?_, ?_⟩
  · intro st st' h
    rw [Checked.readChunk_eq] at h
    exact (readChunk_moves (Option.some.inj h)).2
  · intro chunkSize
    rw [Checked.skipDistance_eq]
    exact Int.natCast_nonneg _
  · intro rounds h
    unfold Checked.read
    cases hriff : opensRiff file with
    | false =>
      rw [read_of_not_opensRiff path hriff]
      rfl
    | true =>
      rw [read_of_opensRiff path hriff, Checked.readLoop_eq path file rounds { position := 12 } h]
      rfl

/-- The header of a file, and the header of a chunk whose size wraps to zero when it is padded. -/
def wrappingFile : List U8 :=
  riffId ++ [0, 0, 0, 0] ++ waveId ++ [0x4C, 0x49, 0x53, 0x54, 0xFF, 0xFF, 0xFF, 0xFF]

/-- The chunk is skipped by its header alone, and two rounds are enough for the file. -/
theorem read_terminates_wrapping :
    12 + 8 ≤ 20 ∧
      Checked.read 2 "loop.wav" wrappingFile = some (read "loop.wav" (some wrappingFile)) :=
  ⟨(read_terminates "loop.wav" wrappingFile).1 { position := 12 } { position := 20 } rfl,
    (read_terminates "loop.wav" wrappingFile).2.2 2 (by decide)⟩

end Wav

end RtpStreamer
