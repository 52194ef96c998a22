import RtpStreamer.Wav.Proofs.ReaderProofs

/-!
# What is written is read

The bytes of `write` are a well-formed file of two chunks, and stay one when foreign chunks are put in
front of either of them. A cut file ends inside a chunk: the reader misses the end of a fmt or data
chunk when it reads the body, and that of an unknown chunk, which it skips, when it looks for the next
header.
-/

namespace RtpStreamer

namespace Wav

open Delimited

/-! ## Cut files -/

section Cut

variable {path : String} {file : List U8} {st : ReadState}

/-- A loop that makes no further round ends without data. -/
theorem no_data_of_no_round (hdata : st.haveData = false)
    (h : ∀ st', readChunk path file st ≠ .ok (some st')) {st' : ReadState}
    (hloop : readLoop path file st = .ok st') : st'.haveData = false := by
  obtain ⟨hrounds, _⟩ := rounds_of_readLoop hloop
  rcases Relation.ReflTransGen.cases_head hrounds with rfl | ⟨next, hround, _⟩
  · exact hdata
  · exact absurd hround.2 (h next)

/-- The stream is too short for another header. -/
theorem no_round_of_short (h : file.length < st.position + 8) (st' : ReadState) :
    readChunk path file st ≠ .ok (some st') := by
  intro hround
  have hmoves := readChunk_moves hround
  omega

/-- Inside a data chunk that is cut off there is no further round. -/
theorem no_round_of_cut_data {cut dataHeader body : List U8} (h : file.drop st.position = cut)
    (hlen : dataHeader.length = 8) (hid : dataHeader.take 4 = dataId)
    (hbody : body.length = (readU32le dataHeader 4).toNat) (hcut : cut <+: dataHeader ++ body)
    (hshort : cut.length < (dataHeader ++ body).length) (st' : ReadState) :
    readChunk path file st ≠ .ok (some st') := by
  intro hround
  rcases prefix_append_cases hcut with ⟨hhead, _⟩ | ⟨rest, rfl, _⟩
  · refine no_round_of_short ?_ st' hround
    rw [← h, List.length_drop] at hhead
    omega
  · rw [readChunk_some_iff (fread_of_drop h hlen), hid] at hround
    obtain ⟨_, ⟨hfmt, _⟩ | ⟨_, hdata⟩ | ⟨_, hother, _⟩⟩ := hround
    · exact absurd hfmt (by decide)
    · obtain ⟨_, hread, _⟩ := readData_ok_iff.mp hdata
      simp only [ReadState.pastHeader, fread, drop_of_drop h hlen, List.length_take] at hread
      rw [List.length_append, List.length_append, hbody] at hshort
      omega
    · exact hother rfl

/-- Inside an aligned chunk that is cut off, a further round has skipped past the end of the file. -/
theorem round_of_cut_chunk {cut : List U8} {c : Chunk} (h : file.drop st.position = cut)
    (hc : Aligned c) (hcut : cut <+: c.symbols) (hshort : cut.length < c.symbols.length)
    {st' : ReadState} (hround : readChunk path file st = .ok (some st')) :
    st'.haveData = st.haveData ∧ file.length < st'.position + 8 := by
  have hlength := length_chunk c
  have hmoves := readChunk_moves hround
  have hcutLength : cut.length = file.length - st.position := by rw [← h, List.length_drop]
  rcases prefix_append_cases hcut with ⟨hhead, _⟩ | ⟨rest, rfl, _⟩
  · rw [length_header] at hhead
    omega
  · rw [readChunk_some_iff (fread_of_drop h (length_header c))] at hround
    rw [List.length_append, length_header] at hshort hcutLength
    obtain ⟨_, ⟨hfmt, hread⟩ | ⟨hdata, _⟩ | ⟨hfmt, _, rfl⟩⟩ := hround
    · obtain ⟨_, hfull, _⟩ := readFmt_ok_iff.mp hread
      have heven := (hc.fmt hfmt).2
      simp only [ReadState.pastHeader, fread, drop_of_drop h (length_header c),
        List.length_take] at hfull
      have hsize : (readU32le c.header 4).toNat = chunkSize c := rfl
      omega
    · exact absurd hdata hc.not_data
    · have hskip := skip_toNat (readU32le c.header 4) (hc.other hfmt)
      have hsize : (readU32le c.header 4).toNat = chunkSize c := rfl
      refine ⟨rfl, ?_⟩
      show file.length < st.position + 8 + _ + 8
      omega

/-- A loop over a cut sequence of chunks ends without data. -/
theorem no_data_of_cut {chunks : List Chunk} (hchunks : ∀ c ∈ chunks, Aligned c)
    {dataHeader body cut : List U8} (hlen : dataHeader.length = 8)
    (hid : dataHeader.take 4 = dataId) (hbody : body.length = (readU32le dataHeader 4).toNat)
    (hdata : st.haveData = false) (h : file.drop st.position = cut)
    (hcut : cut <+: encode chunks ++ (dataHeader ++ body))
    (hshort : cut.length < (encode chunks ++ (dataHeader ++ body)).length) {st' : ReadState}
    (hloop : readLoop path file st = .ok st') : st'.haveData = false := by
  induction chunks generalizing st cut with
  | nil =>
    exact no_data_of_no_round hdata (no_round_of_cut_data h hlen hid hbody hcut hshort) hloop
  | cons c chunks ih =>
    obtain ⟨hc, hchunks⟩ := List.forall_mem_cons.mp hchunks
    rw [encode_cons, List.append_assoc] at hcut hshort
    rcases prefix_append_cases hcut with ⟨hinside, hchunk⟩ | ⟨rest, rfl, htail⟩
    · -- the cut falls into this chunk
      by_cases hround : ∃ next, readChunk path file st = .ok (some next)
      · obtain ⟨next, hround⟩ := hround
        obtain ⟨hnext, hend⟩ := round_of_cut_chunk h hc hchunk hinside hround
        rw [readLoop_next ⟨hdata, hround⟩] at hloop
        exact no_data_of_no_round (hnext.trans hdata) (no_round_of_short hend) hloop
      · exact no_data_of_no_round hdata (fun next hnext => hround ⟨next, hnext⟩) hloop
    · -- the cut leaves this chunk whole
      rw [readLoop_next ⟨hdata, readChunk_aligned path h hc⟩] at hloop
      have hrest : file.drop (afterChunk st c).position = rest := by
        rw [afterChunk_position]
        exact drop_chunk h
      rw [List.length_append, List.length_append] at hshort
      exact ih hchunks ((afterChunk_haveData st c).trans hdata) hrest htail (by omega) hloop

end Cut

/-! ## Errors -/

theorem readChunk_error {path : String} {file : List U8} {st : ReadState} {e : String}
    (h : readChunk path file st = .error e) : ∃ reason, e = message path reason := by
  unfold readChunk readFmt readData at h
  dsimp only at h
  split_ifs at h <;> simp only [Except.map, Except.error.injEq, reduceCtorEq] at h <;>
    exact ⟨_, h.symm⟩

theorem readLoop_error_message {path : String} {file : List U8} {st : ReadState} {e : String}
    (h : readLoop path file st = .error e) : ∃ reason, e = message path reason := by
  induction st using readLoop.induct path file with
  | case1 st hdata =>
    rw [readLoop_done hdata] at h
    cases h
  | case2 st hdata reason hround =>
    rw [readLoop_error (Bool.not_eq_true _ ▸ hdata) hround] at h
    obtain rfl := Except.error.inj h
    exact readChunk_error hround
  | case3 st hdata hround =>
    rw [readLoop_break (Bool.not_eq_true _ ▸ hdata) hround] at h
    cases h
  | case4 st hdata next hround ih =>
    rw [readLoop_next ⟨Bool.not_eq_true _ ▸ hdata, hround⟩] at h
    exact ih h

/-- Every error of `read` names the file. -/
theorem read_error {path : String} {file : Option (List U8)} {e : String}
    (h : read path file = .error e) : ∃ reason, e = message path reason := by
  cases file with
  | none => exact ⟨_, (Except.error.inj h).symm⟩
  | some file =>
    cases hriff : opensRiff file with
    | false =>
      rw [read_of_not_opensRiff path hriff] at h
      exact ⟨_, (Except.error.inj h).symm⟩
    | true =>
      rw [read_of_opensRiff path hriff] at h
      cases hloop : readLoop path file start with
      | error e' =>
        rw [hloop] at h
        obtain rfl := Except.error.inj h
        exact readLoop_error_message hloop
      | ok st =>
        rw [hloop] at h
        change checkFormat path st = .error e at h
        unfold checkFormat at h
        split_ifs at h <;> exact ⟨_, (Except.error.inj h).symm⟩

/-- What is cut off a well-formed file of aligned chunks is refused. -/
theorem WavFile.read_cut (f : WavFile) (path : String) (haligned : ∀ c ∈ f.chunks, Aligned c)
    (hrest : f.rest = []) {cut : List U8} (hcut : cut <+: f.bytes)
    (hshort : cut.length < f.bytes.length) :
    ∃ reason, read path (some cut) = .error (message path reason) := by
  cases hread : read path (some cut) with
  | error e =>
    obtain ⟨reason, rfl⟩ := read_error hread
    exact ⟨reason, rfl⟩
  | ok data =>
    exfalso
    obtain ⟨hriff, st, hloop, hcheck⟩ := read_ok hread
    have hdrop : cut.drop 12 <+: encode f.chunks ++ (f.dataHeader ++ f.body) := by
      have htail := f.drop_bytes
      rw [hrest, List.append_nil] at htail
      rw [← htail]
      exact hcut.drop 12
    have htwelve := ((opensRiff_iff cut).mp hriff).1
    have hlength := congrArg List.length f.drop_bytes
    rw [hrest, List.append_nil, List.length_drop] at hlength
    have hshorter : (cut.drop 12).length < (encode f.chunks ++ (f.dataHeader ++ f.body)).length := by
      rw [List.length_drop]
      omega
    have hdata := no_data_of_cut haligned f.dataHeader_length f.dataHeader_id f.body_length
      (show start.haveData = false from rfl) rfl hdrop hshorter hloop
    rw [(checkFormat_ok_iff.mp hcheck).2.1] at hdata
    cases hdata

/-! ## What `write` leaves -/

/-- `RIFF`, the size of the rest, and `WAVE`. -/
def riffHeader (numSamples : Nat) : List U8 :=
  riffId ++ writeU32le (36 + BitVec.ofNat 32 (numSamples * 2)) ++ waveId

theorem fmtHeader_size : readU32le (fmtId ++ writeU32le 16) 4 = 16 := joinU32_bytes 16

/-- The fmt chunk of a mono 16-bit file. -/
def fmtChunk (sampleRate : U32) : Chunk where
  header := fmtId ++ writeU32le 16
  payload := writeU16le 1 ++ writeU16le 1 ++ writeU32le sampleRate ++
    writeU32le (sampleRate * 2) ++ writeU16le 2 ++ writeU16le 16
  header_length := rfl
  payload_length := by
    show 16 = (readU32le (fmtId ++ writeU32le 16) 4).toNat +
      (readU32le (fmtId ++ writeU32le 16) 4).toNat % 2
    rw [fmtHeader_size]
    rfl

theorem chunkSize_fmtChunk (sampleRate : U32) : chunkSize (fmtChunk sampleRate) = 16 :=
  congrArg BitVec.toNat fmtHeader_size

theorem chunkBody_fmtChunk (sampleRate : U32) :
    chunkBody (fmtChunk sampleRate) = (fmtChunk sampleRate).payload := by
  rw [chunkBody, chunkSize_fmtChunk]
  rfl

def dataHeader (numSamples : Nat) : List U8 :=
  dataId ++ writeU32le (BitVec.ofNat 32 (numSamples * 2))

theorem writtenBytes_eq (sampleRate : U32) (samples : List I16) :
    writtenBytes sampleRate samples = riffHeader samples.length ++
      ((fmtChunk sampleRate).symbols ++
        (dataHeader samples.length ++ samples.flatMap writeU16le)) := by
  unfold writtenBytes riffHeader dataHeader fmtChunk Record.symbols
  simp only [List.append_assoc]
  rfl

theorem length_samples (samples : List I16) :
    (samples.flatMap writeU16le).length = samples.length * 2 := by
  induction samples with
  | nil => rfl
  | cons sample samples ih =>
    rw [List.flatMap_cons, List.length_append, ih, List.length_cons, Nat.succ_mul, Nat.add_comm]
    rfl

/-- The sample at an index is the word at twice the index. -/
theorem readU16le_samples (samples : List I16) (i : Nat) :
    readU16le (samples.flatMap writeU16le) (i * 2) = samples.getD i 0 := by
  induction samples generalizing i with
  | nil => simp [readU16le, joinU16]
  | cons sample samples ih =>
    cases i with
    | zero => exact joinU16_bytes sample
    | succ i =>
      rw [Nat.succ_mul]
      exact ih i

theorem samplesOf_samples (samples : List I16) : samplesOf (samples.flatMap writeU16le) = samples := by
  unfold samplesOf
  rw [length_samples, Nat.mul_div_cancel _ (by decide)]
  refine List.ext_getElem (by rw [List.length_map, List.length_range]) fun i _ hi => ?_
  rw [List.getElem_map, List.getElem_range, readU16le_samples, List.getD_eq_getElem _ _ hi]

/-! ## Foreign chunks -/

/-- A chunk that WAV readers have to skip. -/
structure Foreign (c : Chunk) : Prop where
  not_fmt : chunkId c ≠ fmtId
  not_data : chunkId c ≠ dataId
  size : chunkSize c ≤ 2 ^ 32 - 2

theorem Foreign.aligned {c : Chunk} (h : Foreign c) : Aligned c where
  not_data := h.not_data
  fmt hfmt := absurd hfmt h.not_fmt
  other _ := by
    have hsize := h.size
    omega

theorem aligned_fmtChunk (sampleRate : U32) : Aligned (fmtChunk sampleRate) where
  not_data := show fmtId ≠ dataId by decide
  fmt _ := by
    rw [IsPcm, chunkSize_fmtChunk, chunkBody_fmtChunk]
    exact ⟨⟨le_rfl, joinU16_bytes 1⟩, rfl⟩
  other hother := absurd (show chunkId (fmtChunk sampleRate) = fmtId from rfl) hother

/-- Some chunks put in front of the fmt chunk of a written file, and some between it and the data. -/
def insertChunks (written : List U8) (before between : List Chunk) : List U8 :=
  written.take 12 ++ encode before ++ (written.drop 12).take 24 ++ encode between ++ written.drop 36

theorem lastFmt_foreign {before between : List Chunk} (hbetween : ∀ c ∈ between, Foreign c)
    {fmt : Chunk} (hfmt : chunkId fmt = fmtId) : lastFmt (before ++ fmt :: between) = some fmt := by
  induction between using List.reverseRecOn with
  | nil => rw [lastFmt_snoc, if_pos hfmt]
  | append_singleton between c ih =>
    rw [List.forall_mem_append] at hbetween
    rw [← List.cons_append, ← List.append_assoc, lastFmt_snoc,
      if_neg (hbetween.2 c (List.mem_singleton_self c)).not_fmt]
    exact ih hbetween.1

theorem aligned_foreign {before between : List Chunk} (hforeign : ∀ c ∈ before ++ between, Foreign c)
    (sampleRate : U32) : ∀ c ∈ before ++ fmtChunk sampleRate :: between, Aligned c := by
  intro c hc
  rcases List.mem_append.mp hc with hc | hc
  · exact (hforeign c (List.mem_append_left between hc)).aligned
  · rcases List.mem_cons.mp hc with rfl | hc
    · exact aligned_fmtChunk sampleRate
    · exact (hforeign c (List.mem_append_right before hc)).aligned

theorem dataHeader_size {numSamples : Nat} (h : 36 + 2 * numSamples < 2 ^ 32) :
    (readU32le (dataHeader numSamples) 4).toNat = numSamples * 2 := by
  have hread : readU32le (dataHeader numSamples) 4 = BitVec.ofNat 32 (numSamples * 2) :=
    joinU32_bytes _
  rw [hread, BitVec.toNat_ofNat]
  omega

/-- The parts of a written file with foreign chunks. -/
def foreignFile (sampleRate : U32) (samples : List I16) (before between : List Chunk)
    (hsize : 36 + 2 * samples.length < 2 ^ 32) (hforeign : ∀ c ∈ before ++ between, Foreign c) :
    WavFile where
  header := riffHeader samples.length
  chunks := before ++ fmtChunk sampleRate :: between
  fmt := fmtChunk sampleRate
  dataHeader := dataHeader samples.length
  body := samples.flatMap writeU16le
  rest := []
  header_length := rfl
  header_riff := rfl
  header_wave := rfl
  chunks_not_data c hc := (aligned_foreign hforeign sampleRate c hc).not_data
  chunks_pcm c hc hfmt := ((aligned_foreign hforeign sampleRate c hc).fmt hfmt).1
  fmt_last := lastFmt_foreign (fun c hc => hforeign c (List.mem_append_right before hc)) rfl
  fmt_mono := by
    rw [chunkBody_fmtChunk]
    exact joinU16_bytes 1
  fmt_sixteen := by
    rw [chunkBody_fmtChunk]
    exact joinU16_bytes 16
  dataHeader_length := rfl
  dataHeader_id := rfl
  body_length := by rw [length_samples, dataHeader_size hsize]

section ForeignFile

variable (sampleRate : U32) {samples : List I16} {before between : List Chunk}
  (hsize : 36 + 2 * samples.length < 2 ^ 32) (hforeign : ∀ c ∈ before ++ between, Foreign c)

theorem foreignFile_bytes :
    (foreignFile sampleRate samples before between hsize hforeign).bytes =
      insertChunks (writtenBytes sampleRate samples) before between := by
  have hhead : (riffHeader samples.length).length = 12 := rfl
  have hfmt : (fmtChunk sampleRate).symbols.length = 24 := rfl
  have hencode : encode (before ++ fmtChunk sampleRate :: between) =
      encode before ++ ((fmtChunk sampleRate).symbols ++ encode between) := List.flatMap_append
  unfold insertChunks
  rw [writtenBytes_eq, show 36 = 12 + 24 from rfl, ← List.drop_drop, List.take_left' hhead,
    List.drop_left' hhead, List.take_left' hfmt, List.drop_left' hfmt]
  simp only [WavFile.bytes, foreignFile, hencode, List.append_assoc, List.append_nil]

theorem foreignFile_value :
    (foreignFile sampleRate samples before between hsize hforeign).value =
      { sampleRate := sampleRate, numChannels := 1, bitsPerSample := 16, samples := samples } := by
  unfold WavFile.value
  simp only [foreignFile, chunkBody_fmtChunk, samplesOf_samples, WavData.mk.injEq, and_true]
  exact joinU32_bytes sampleRate

end ForeignFile

/-- **The round trip.** Foreign chunks in front of the fmt chunk and of the data do not change what is
read back from a written file, and no cut of it is read. -/
theorem wav_round_trip (path : String) (sampleRate : U32) (samples : List I16)
    (hsize : 36 + 2 * samples.length < 2 ^ 32) (before between : List Chunk)
    (hforeign : ∀ c ∈ before ++ between, Foreign c) :
    ∃ written, write path true sampleRate samples = .ok written ∧
      let file := insertChunks written before between
      read path (some file) =
        .ok { sampleRate := sampleRate, numChannels := 1, bitsPerSample := 16, samples := samples } ∧
      ∀ cut, cut <+: file → cut ≠ file →
        ∃ reason, read path (some cut) = .error (message path reason) := by
  refine ⟨writtenBytes sampleRate samples, rfl, ?_⟩
  intro file
  have haligned := aligned_foreign hforeign sampleRate
  have hbytes : (foreignFile sampleRate samples before between hsize hforeign).bytes = file :=
    foreignFile_bytes sampleRate hsize hforeign
  refine ⟨?_, ?_⟩
  · rw [← hbytes, WavFile.read_bytes _ path haligned, foreignFile_value]
  · intro cut hcut hne
    have hshort : cut.length < file.length := by
      refine lt_of_le_of_ne hcut.length_le fun heq => hne (hcut.eq_of_length heq)
    rw [← hbytes] at hcut hshort
    exact WavFile.read_cut _ path haligned rfl hcut hshort

/-- A LIST chunk of one byte and its padding. -/
def listChunk : Chunk where
  header := [0x4C, 0x49, 0x53, 0x54, 1, 0, 0, 0]
  payload := [7, 0]
  header_length := rfl
  payload_length := rfl

/-- Two samples behind a LIST chunk of odd size. -/
theorem wav_round_trip_example :
    read "tone.wav" (some (insertChunks (writtenBytes 8000 [1, -1]) [listChunk] [])) =
      .ok { sampleRate := 8000, numChannels := 1, bitsPerSample := 16, samples := [1, -1] } := by
  obtain ⟨written, hwritten, hread, _⟩ := wav_round_trip "tone.wav" 8000 [1, -1] (by decide)
    [listChunk] [] (by
      intro c hc
      obtain rfl := List.mem_singleton.mp hc
      exact ⟨by decide, by decide, by decide⟩)
  obtain rfl := Except.ok.inj hwritten
  exact hread

end Wav

end RtpStreamer
