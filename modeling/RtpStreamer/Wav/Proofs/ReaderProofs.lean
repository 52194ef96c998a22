import RtpStreamer.Wav.Grammar
import RtpStreamer.Packet.Proofs.RtpPacketProofs

/-!
# The reader on aligned chunks

An aligned chunk takes the loop of `read` from its header to the byte behind its padding, so a
well-formed file whose chunks are all aligned is read (`WavFile.read_bytes`).
-/

namespace RtpStreamer

namespace Wav

open Delimited

/-! ## Bytes at a position -/

theorem fread_of_drop {file xs rest : List U8} {position n : Nat}
    (h : file.drop position = xs ++ rest) (hn : xs.length = n) : fread file position n = xs := by
  rw [fread, h, ← hn, List.take_left]

theorem drop_of_drop {file xs rest : List U8} {position n : Nat}
    (h : file.drop position = xs ++ rest) (hn : xs.length = n) : file.drop (position + n) = rest := by
  rw [← List.drop_drop, h, ← hn, List.drop_left]

theorem length_fread (file : List U8) (position n : Nat) :
    (fread file position n).length = min n (file.length - position) := by
  rw [fread, List.length_take, List.length_drop]

/-- What is read, in front of what is left. -/
theorem drop_eq_fread_append (file : List U8) (position n : Nat) :
    file.drop position = fread file position n ++ file.drop (position + n) := by
  rw [fread, ← List.drop_drop, List.take_append_drop]

/-! ## Chunks -/

theorem length_header (c : Chunk) : c.header.length = 8 := c.header_length

theorem chunkSize_le (c : Chunk) : chunkSize c ≤ c.payload.length := by
  rw [c.payload_length]
  exact Nat.le_add_right _ _

theorem length_chunkBody (c : Chunk) : (chunkBody c).length = chunkSize c := by
  rw [chunkBody, List.length_take, Nat.min_eq_left (chunkSize_le c)]

theorem length_chunk (c : Chunk) : c.symbols.length = 8 + (chunkSize c + chunkSize c % 2) :=
  c.length_symbols

section Chunk

variable {file rest : List U8} {position : Nat} {c : Chunk}

theorem fread_header (h : file.drop position = c.symbols ++ rest) : fread file position 8 = c.header := by
  rw [Record.symbols, List.append_assoc] at h
  exact fread_of_drop h (length_header c)

theorem fread_body (h : file.drop position = c.symbols ++ rest) :
    fread file (position + 8) (chunkSize c) = chunkBody c := by
  rw [Record.symbols, List.append_assoc] at h
  rw [fread, drop_of_drop h (length_header c), List.take_append_of_le_length (chunkSize_le c)]
  rfl

theorem drop_chunk (h : file.drop position = c.symbols ++ rest) :
    file.drop (position + c.symbols.length) = rest := drop_of_drop h rfl

end Chunk

/-- The state behind a chunk that is not the data. -/
def afterChunk (st : ReadState) (c : Chunk) : ReadState :=
  if chunkId c = fmtId then
    { st with
      position := st.position + c.symbols.length
      result := st.result.setFormat (chunkBody c)
      haveFmt := true }
  else { st with position := st.position + c.symbols.length }

@[simp] theorem afterChunk_position (st : ReadState) (c : Chunk) :
    (afterChunk st c).position = st.position + c.symbols.length := by
  unfold afterChunk
  split_ifs <;> rfl

@[simp] theorem afterChunk_haveData (st : ReadState) (c : Chunk) :
    (afterChunk st c).haveData = st.haveData := by
  unfold afterChunk
  split_ifs <;> rfl

/-- The 32-bit size that is skipped does not wrap, except for the largest one. -/
theorem skip_toNat (size : U32) (h : size.toNat ≠ 0xFFFFFFFF) :
    (size + size % 2).toNat = size.toNat + size.toNat % 2 := by
  have hlt := size.isLt
  rw [BitVec.toNat_add, BitVec.toNat_umod]
  show (size.toNat + size.toNat % 2) % 2 ^ 32 = _
  omega

theorem readChunk_aligned (path : String) {file rest : List U8} {st : ReadState} {c : Chunk}
    (h : file.drop st.position = c.symbols ++ rest) (hc : Aligned c) :
    readChunk path file st = .ok (some (afterChunk st c)) := by
  have hsize : (readU32le c.header 4).toNat = chunkSize c := rfl
  have hlen := length_chunk c
  rw [readChunk_some_iff (fread_header h)]
  refine ⟨length_header c, ?_⟩
  unfold afterChunk
  by_cases hfmt : chunkId c = fmtId
  · -- the size is even, so there is no padding to skip
    obtain ⟨⟨hsixteen, hpcm⟩, heven⟩ := hc.fmt hfmt
    refine Or.inl ⟨hfmt, ?_⟩
    rw [readFmt_ok_iff, hsize]
    simp only [ReadState.pastHeader, fread_body h, if_pos hfmt]
    refine ⟨hsixteen, length_chunkBody c, hpcm, ?_⟩
    rw [hlen, heven, Nat.add_assoc]
    rfl
  · refine Or.inr (Or.inr ⟨hfmt, hc.not_data, ?_⟩)
    have hskip := skip_toNat (readU32le c.header 4) (hc.other hfmt)
    rw [if_neg hfmt, skipChunk, hskip, hlen, hsize]
    simp only [ReadState.pastHeader, Nat.add_assoc]

/-! ## The loop -/

section Loop

variable {path : String} {file : List U8} {st st' : ReadState}

theorem readLoop_done (h : st.haveData = true) : readLoop path file st = .ok st := by
  rw [readLoop, if_pos h]

theorem readLoop_error {reason : String} (hdata : st.haveData = false)
    (h : readChunk path file st = .error reason) : readLoop path file st = .error reason := by
  rw [readLoop, hdata, if_neg Bool.false_ne_true]
  split <;> simp_all

theorem readLoop_break (hdata : st.haveData = false) (h : readChunk path file st = .ok none) :
    readLoop path file st = .ok st := by
  rw [readLoop, hdata, if_neg Bool.false_ne_true]
  split <;> simp_all

theorem readLoop_next (h : Round path file st st') : readLoop path file st = readLoop path file st' := by
  obtain ⟨hdata, hround⟩ := h
  rw [readLoop, hdata, if_neg Bool.false_ne_true]
  split <;> simp_all

theorem readLoop_of_rounds (h : Relation.ReflTransGen (Round path file) st st') :
    readLoop path file st = readLoop path file st' := by
  induction h with
  | refl => rfl
  | tail _ hround ih => exact ih.trans (readLoop_next hround)

/-- The loop ends behind the rounds that it makes, with the data or without another chunk. -/
theorem rounds_of_readLoop (h : readLoop path file st = .ok st') :
    Relation.ReflTransGen (Round path file) st st' ∧
      (st'.haveData = true ∨ readChunk path file st' = .ok none) := by
  induction st using readLoop.induct path file with
  | case1 st hdata =>
    rw [readLoop_done hdata] at h
    obtain rfl := Except.ok.inj h
    exact ⟨.refl, Or.inl hdata⟩
  | case2 st hdata reason hround =>
    rw [readLoop_error (Bool.not_eq_true _ ▸ hdata) hround] at h
    cases h
  | case3 st hdata hround =>
    rw [readLoop_break (Bool.not_eq_true _ ▸ hdata) hround] at h
    obtain rfl := Except.ok.inj h
    exact ⟨.refl, Or.inr hround⟩
  | case4 st hdata next hround ih =>
    have hstep : Round path file st next := ⟨Bool.not_eq_true _ ▸ hdata, hround⟩
    rw [readLoop_next hstep] at h
    obtain ⟨hreach, hend⟩ := ih h
    exact ⟨.head hstep hreach, hend⟩

end Loop

/-! ## Runs over chunks -/

/-- The state once the last of some fmt chunks has been read. -/
def withFmt (st : ReadState) : Option Chunk → ReadState
  | none => st
  | some fmt => { st with result := st.result.setFormat (chunkBody fmt), haveFmt := true }

theorem lastFmt_snoc (chunks : List Chunk) (c : Chunk) :
    lastFmt (chunks ++ [c]) = if chunkId c = fmtId then some c else lastFmt chunks := by
  unfold lastFmt
  by_cases hfmt : chunkId c = fmtId
  · rw [if_pos hfmt, List.filter_append, List.filter_singleton, decide_eq_true hfmt]
    exact List.getLast?_concat
  · rw [if_neg hfmt, List.filter_append, List.filter_singleton, decide_eq_false hfmt]
    exact congrArg List.getLast? (List.append_nil _)

/-- Behind several chunks the last fmt chunk counts. -/
theorem foldl_afterChunk (st : ReadState) (chunks : List Chunk) :
    chunks.foldl afterChunk st =
      { withFmt st (lastFmt chunks) with position := st.position + (encode chunks).length } := by
  induction chunks using List.reverseRecOn with
  | nil => rfl
  | append_singleton chunks c ih =>
    rw [List.foldl_append, List.foldl_cons, List.foldl_nil, ih, encode_snoc, lastFmt_snoc]
    unfold afterChunk
    rw [List.length_append, ← Nat.add_assoc]
    by_cases hfmt : chunkId c = fmtId
    · rw [if_pos hfmt, if_pos hfmt]
      cases lastFmt chunks <;> rfl
    · rw [if_neg hfmt, if_neg hfmt]

theorem rounds_chunks (path : String) {file rest : List U8} {chunks : List Chunk}
    (hchunks : ∀ c ∈ chunks, Aligned c) {st : ReadState} (hdata : st.haveData = false)
    (h : file.drop st.position = encode chunks ++ rest) :
    Relation.ReflTransGen (Round path file) st (chunks.foldl afterChunk st) := by
  induction chunks generalizing st with
  | nil => exact .refl
  | cons c chunks ih =>
    obtain ⟨hc, hchunks⟩ := List.forall_mem_cons.mp hchunks
    rw [encode_cons, List.append_assoc] at h
    have hround : Round path file st (afterChunk st c) := ⟨hdata, readChunk_aligned path h hc⟩
    refine .head hround (ih hchunks ((afterChunk_haveData st c).trans hdata) ?_)
    rw [afterChunk_position]
    exact drop_chunk h

theorem readChunk_data (path : String) {file dataHeader body rest : List U8} {st : ReadState}
    (h : file.drop st.position = dataHeader ++ (body ++ rest)) (hlen : dataHeader.length = 8)
    (hid : dataHeader.take 4 = dataId) (hbody : body.length = (readU32le dataHeader 4).toNat)
    (hfmt : st.haveFmt = true) :
    readChunk path file st = .ok (some { st with
      position := st.position + 8 + body.length
      result := { st.result with samples := samplesOf body }
      haveData := true }) := by
  have hread : fread file (st.position + 8) (readU32le dataHeader 4).toNat = body :=
    fread_of_drop (drop_of_drop h hlen) hbody
  rw [readChunk_some_iff (fread_of_drop h hlen)]
  refine ⟨hlen, Or.inr (Or.inl ⟨hid, ?_⟩)⟩
  rw [readData_ok_iff]
  simp only [ReadState.pastHeader, hread]
  exact ⟨hfmt, hbody, by rw [hbody]⟩

/-! ## Whole files -/

theorem opensRiff_iff (file : List U8) :
    opensRiff file = true ↔ 12 ≤ file.length ∧ file.take 4 = riffId ∧ (file.take 12).drop 8 = waveId := by
  have htake : (file.take 12).take 4 = file.take 4 := List.take_take
  unfold opensRiff
  simp only [fread, List.drop_zero, Bool.and_eq_true, beq_iff_eq, List.length_take, htake, and_assoc]
  refine and_congr_left fun _ => ?_
  omega

theorem read_of_opensRiff (path : String) {file : List U8} (h : opensRiff file = true) :
    read path (some file) = (readLoop path file start).bind (checkFormat path) := by
  simp only [read, h, Bool.not_true, Bool.false_eq_true, if_false]
  rfl

theorem read_of_not_opensRiff (path : String) {file : List U8} (h : opensRiff file = false) :
    read path (some file) = .error (message path "not a RIFF/WAVE file") := by
  simp only [read, h, Bool.not_false, if_true]

theorem checkFormat_ok_iff {path : String} {st : ReadState} {data : WavData} :
    checkFormat path st = .ok data ↔ st.haveFmt = true ∧ st.haveData = true ∧
      st.result.numChannels = 1 ∧ st.result.bitsPerSample = 16 ∧ st.result = data := by
  unfold checkFormat
  change (if _ then _ else if st.result.numChannels ≠ 1 then _
    else if st.result.bitsPerSample ≠ 16 then _ else _) = _ ↔ _
  by_cases hfmt : st.haveFmt = true
  · by_cases hdata : st.haveData = true
    · by_cases hmono : st.result.numChannels = 1
      · by_cases hsixteen : st.result.bitsPerSample = 16
        · simp only [hfmt, hdata, hmono, hsixteen, Bool.not_true, Bool.or_self, Bool.false_eq_true,
            ne_eq, not_true_eq_false, if_false, Except.ok.injEq, true_and]
        · simp only [hfmt, hdata, hmono, hsixteen, Bool.not_true, Bool.or_self, Bool.false_eq_true,
            ne_eq, not_true_eq_false, not_false_eq_true, if_false, if_true, reduceCtorEq, false_and,
            and_false]
      · simp only [hfmt, hdata, hmono, Bool.not_true, Bool.or_self, Bool.false_eq_true, ne_eq,
          not_false_eq_true, if_false, if_true, reduceCtorEq, false_and, and_false]
    · simp only [hdata, Bool.not_false, Bool.or_true, if_true, reduceCtorEq, Bool.false_eq_true,
        false_and, and_false]
  · simp only [hfmt, Bool.not_false, Bool.true_or, if_true, reduceCtorEq, Bool.false_eq_true,
      false_and]

/-- A file is accepted when it opens as one, its chunks are read and their format is supported. -/
theorem read_ok {path : String} {file : List U8} {data : WavData}
    (h : read path (some file) = .ok data) :
    opensRiff file = true ∧
      ∃ st, readLoop path file start = .ok st ∧ checkFormat path st = .ok data := by
  cases hriff : opensRiff file with
  | false =>
    rw [read_of_not_opensRiff path hriff] at h
    cases h
  | true =>
    rw [read_of_opensRiff path hriff] at h
    cases hloop : readLoop path file start with
    | error e =>
      rw [hloop] at h
      cases h
    | ok st =>
      rw [hloop] at h
      exact ⟨rfl, st, rfl, h⟩

namespace WavFile

variable (f : WavFile)

theorem opensRiff_bytes : opensRiff f.bytes = true := by
  have hlen := f.header_length
  rw [opensRiff_iff, bytes, List.take_append_of_le_length (by omega), ← hlen, List.take_left]
  refine ⟨?_, f.header_riff, f.header_wave⟩
  rw [List.length_append]
  exact Nat.le_add_right _ _

theorem drop_bytes :
    f.bytes.drop 12 = encode f.chunks ++ (f.dataHeader ++ (f.body ++ f.rest)) := by
  rw [bytes, ← f.header_length, List.drop_left]

/-- A well-formed file whose chunks are all aligned is read. -/
theorem read_bytes (path : String) (haligned : ∀ c ∈ f.chunks, Aligned c) :
    read path (some f.bytes) = .ok f.value := by
  have hrounds := rounds_chunks path haligned (show start.haveData = false from rfl) f.drop_bytes
  have hdrop : f.bytes.drop (f.chunks.foldl afterChunk start).position =
      f.dataHeader ++ (f.body ++ f.rest) := by
    rw [foldl_afterChunk]
    exact drop_of_drop f.drop_bytes rfl
  have hstate := foldl_afterChunk start f.chunks
  rw [f.fmt_last] at hstate
  have hdata := readChunk_data path hdrop f.dataHeader_length f.dataHeader_id f.body_length
    (by rw [hstate]; rfl)
  rw [read_of_opensRiff path f.opensRiff_bytes, readLoop_of_rounds hrounds,
    readLoop_next ⟨by rw [hstate]; rfl, hdata⟩, readLoop_done rfl, hstate]
  show checkFormat path _ = _
  unfold checkFormat
  simp only [withFmt, WavData.setFormat, f.fmt_mono, f.fmt_sixteen]
  rfl

end WavFile

end Wav

end RtpStreamer
