import RtpStreamer.Wav.Proofs.ReaderProofs

/-!
# The reader against the grammar

As long as no header makes it continue inside a chunk, the reader stands behind whole aligned chunks
whenever it reads a header (`atChunk_of_rounds`), so what it accepts is well-formed and its headers lie
apart; on a misaligned file it does read a header inside a chunk.
-/

namespace RtpStreamer

namespace Wav

open Delimited

/-- The loop has read aligned chunks, and nothing else. -/
def AtChunk (file : List U8) (st : ReadState) : Prop :=
  ∃ chunks : List Chunk, (∀ c ∈ chunks, Aligned c) ∧ st = chunks.foldl afterChunk start ∧
    file.drop 12 = encode chunks ++ file.drop st.position

theorem atChunk_start (file : List U8) : AtChunk file start :=
  ⟨[], fun _ hc => absurd hc List.not_mem_nil, rfl, rfl⟩

variable {path : String} {file : List U8} {st st' : ReadState}

theorem AtChunk.haveData (h : AtChunk file st) : st.haveData = false := by
  obtain ⟨chunks, _, rfl, _⟩ := h
  rw [foldl_afterChunk]
  cases lastFmt chunks <;> rfl

theorem AtChunk.after (h : AtChunk file st) {c : Chunk} {rest : List U8}
    (hdrop : file.drop st.position = c.symbols ++ rest) (hc : Aligned c) :
    AtChunk file (afterChunk st c) := by
  obtain ⟨chunks, hchunks, rfl, hfile⟩ := h
  refine ⟨chunks ++ [c], ?_, ?_, ?_⟩
  · rw [List.forall_mem_append]
    exact ⟨hchunks, fun c' hc' => List.mem_singleton.mp hc' ▸ hc⟩
  · rw [List.foldl_append, List.foldl_cons, List.foldl_nil]
  · rw [hfile, hdrop, afterChunk_position, drop_chunk hdrop, encode_snoc, List.append_assoc]

/-- The header that the loop reads at a chunk, and what follows it. -/
theorem AtChunk.not_leavesInside (h : AtChunk file st) (hriff : opensRiff file = true)
    (hmis : ¬ Misaligned file) (hlen : st.position + 8 ≤ file.length) :
    ¬ LeavesInside (fread file st.position 8) (file.drop (st.position + 8)) := by
  intro hleaves
  obtain ⟨chunks, hchunks, _, hfile⟩ := h
  refine hmis ⟨hriff, chunks, _, _, ?_, hchunks, ?_, hleaves⟩
  · rw [hfile, ← drop_eq_fread_append]
  · rw [length_fread]
    omega

/-- A whole chunk at the position of the stream. -/
theorem exists_chunk (file : List U8) (st : ReadState)
    (hlen : st.position + 8 + riffFormat.extent (fread file st.position 8) ≤ file.length) :
    ∃ (c : Chunk) (rest : List U8), file.drop st.position = c.symbols ++ rest ∧
      c.header = fread file st.position 8 := by
  refine exists_record riffFormat ?_ ?_
  · rw [List.length_drop]
    show 8 ≤ _
    omega
  · rw [List.length_drop]
    show 8 + riffFormat.extent (fread file st.position 8) ≤ _
    omega

/-- The size that a header at the stream declares. -/
def sizeAt (file : List U8) (st : ReadState) : Nat := (readU32le (fread file st.position 8) 4).toNat

section Aligned

variable {c : Chunk} {rest : List U8}

theorem aligned_fmt (hdrop : file.drop st.position = c.symbols ++ rest)
    (hid : (fread file st.position 8).take 4 = fmtId) (hsixteen : 16 ≤ sizeAt file st)
    (heven : sizeAt file st % 2 = 0)
    (hpcm : readU16le (fread file (st.position + 8) (sizeAt file st)) 0 = 1) : Aligned c := by
  have hsize : chunkSize c = sizeAt file st := by rw [chunkSize, sizeAt, fread_header hdrop]
  have hcid : chunkId c = fmtId := by rw [chunkId, ← fread_header hdrop, hid]
  refine ⟨?_, fun _ => ⟨⟨?_, ?_⟩, ?_⟩, fun hother => absurd hcid hother⟩
  · rw [hcid]
    decide
  · rw [hsize]
    exact hsixteen
  · rw [← fread_body hdrop, hsize]
    exact hpcm
  · rw [hsize]
    exact heven

theorem aligned_other (hdrop : file.drop st.position = c.symbols ++ rest)
    (hfmt : (fread file st.position 8).take 4 ≠ fmtId)
    (hdata : (fread file st.position 8).take 4 ≠ dataId) (hmax : sizeAt file st ≠ 0xFFFFFFFF) :
    Aligned c := by
  rw [fread_header hdrop] at hfmt hdata
  rw [sizeAt, fread_header hdrop] at hmax
  exact ⟨hdata, fun hcid => absurd hcid hfmt, fun _ => hmax⟩

/-- The round passes a chunk that is aligned. -/
theorem round_eq_after (hround : Round path file st st')
    (hdrop : file.drop st.position = c.symbols ++ rest) (hc : Aligned c) : st' = afterChunk st c := by
  have hnext := readChunk_aligned path hdrop hc
  rw [hround.2] at hnext
  exact Option.some.inj (Except.ok.inj hnext)

end Aligned

/-- What a round does at a chunk of a file that is not misaligned: it reads the data, leaves less than a
header behind, or passes an aligned chunk. -/
theorem round_of_atChunk (hriff : opensRiff file = true) (hmis : ¬ Misaligned file)
    (h : AtChunk file st) (hround : Round path file st st') :
    st'.haveData = true ∨ file.length < st'.position + 8 ∨
      ∃ (c : Chunk) (rest : List U8), file.drop st.position = c.symbols ++ rest ∧ Aligned c ∧
        st' = afterChunk st c := by
  have hmoves := readChunk_moves hround.2
  have hinside := h.not_leavesInside hriff hmis hmoves.1
  have hextent : riffFormat.extent (fread file st.position 8) =
    sizeAt file st + sizeAt file st % 2 := rfl
  rcases ((readChunk_some_iff rfl).mp hround.2).2 with
    ⟨hid, hread⟩ | ⟨_, hread⟩ | ⟨hfmt, hdata, hst⟩
  · obtain ⟨hsixteen, hfull, hpcm, hst⟩ := readFmt_ok_iff.mp hread
    rw [length_fread] at hfull
    change min (sizeAt file st) (file.length - (st.position + 8)) = sizeAt file st at hfull
    have hposition : st'.position = st.position + 8 + sizeAt file st := by
      rw [hst]
      rfl
    rcases Nat.mod_two_eq_zero_or_one (sizeAt file st) with heven | hodd
    · obtain ⟨c, rest, hdrop, _⟩ := exists_chunk file st (by omega)
      have hc := aligned_fmt hdrop hid hsixteen heven hpcm
      exact Or.inr (Or.inr ⟨c, rest, hdrop, hc, round_eq_after hround hdrop hc⟩)
    · -- the padding is not skipped, so no header may follow
      refine Or.inr (Or.inl ?_)
      by_contra hmore
      refine hinside (Or.inl ⟨hid, hsixteen, hodd, hpcm, ?_⟩)
      rw [List.length_drop]
      change sizeAt file st + 8 ≤ _
      omega
  · obtain ⟨_, _, hst⟩ := readData_ok_iff.mp hread
    exact Or.inl (by rw [hst])
  · by_cases hmax : sizeAt file st = 0xFFFFFFFF
    · -- nothing is skipped, so no header may follow
      refine Or.inr (Or.inl ?_)
      by_contra hmore
      refine hinside (Or.inr ⟨hfmt, hdata, hmax, ?_⟩)
      rw [List.length_drop]
      omega
    · by_cases hlen : st.position + 8 + riffFormat.extent (fread file st.position 8) ≤ file.length
      · obtain ⟨c, rest, hdrop, _⟩ := exists_chunk file st hlen
        have hc := aligned_other hdrop hfmt hdata hmax
        exact Or.inr (Or.inr ⟨c, rest, hdrop, hc, round_eq_after hround hdrop hc⟩)
      · have hskip := skip_toNat _ hmax
        have hposition : st'.position = st.position + 8 + (sizeAt file st + sizeAt file st % 2) := by
          rw [hst]
          exact congrArg (st.position + 8 + ·) hskip
        exact Or.inr (Or.inl (by omega))

/-- In a file that is not misaligned, every header is read behind whole aligned chunks. -/
theorem atChunk_of_rounds (hriff : opensRiff file = true) (hmis : ¬ Misaligned file)
    (h : Relation.ReflTransGen (Round path file) start st) (hread : ReadsHeader file st) :
    AtChunk file st := by
  induction h with
  | refl => exact atChunk_start file
  | tail _ hround ih =>
    have hbefore := ih ⟨hround.1, (readChunk_moves hround.2).1⟩
    rcases round_of_atChunk hriff hmis hbefore hround with hdata | hend | ⟨c, rest, hdrop, hc, rfl⟩
    · rw [hread.1] at hdata
      cases hdata
    · have hlen := hread.2
      omega
    · exact hbefore.after hdrop hc

theorem position_le_of_rounds (h : Relation.ReflTransGen (Round path file) st st') :
    st.position ≤ st'.position := by
  induction h with
  | refl => exact le_rfl
  | tail _ hround ih =>
    have hmoves := readChunk_moves hround.2
    omega

/-- A state that another round follows, or that reads a header itself. -/
theorem readsHeader_of_rounds (h : Relation.ReflTransGen (Round path file) st st')
    (hread : ReadsHeader file st') : ReadsHeader file st := by
  rcases Relation.ReflTransGen.cases_head h with rfl | ⟨next, hround, _⟩
  · exact hread
  · exact ⟨hround.1, (readChunk_moves hround.2).1⟩

theorem headersOutside (path : String) (hmis : ¬ Misaligned file) : HeadersOutside path file := by
  intro hriff st st' hstart hrounds hread
  obtain ⟨next, hround, hrest⟩ := Relation.TransGen.head'_iff.mp hrounds
  have hat := atChunk_of_rounds hriff hmis hstart ⟨hround.1, (readChunk_moves hround.2).1⟩
  have hnext := readsHeader_of_rounds hrest hread
  refine le_trans ?_ (position_le_of_rounds hrest)
  rcases round_of_atChunk hriff hmis hat hround with hdata | hend | ⟨c, rest, hdrop, hc, rfl⟩
  · rw [hnext.1] at hdata
    cases hdata
  · have hlen := hnext.2
    omega
  · rw [afterChunk_position, c.length_symbols, fread_header hdrop, Nat.add_assoc]
    exact le_rfl

/-! ## What is accepted -/

/-- Only the data chunk ends the loop with data. -/
theorem readData_of_round (hround : Round path file st st') (hdata : st'.haveData = true) :
    (fread file st.position 8).length = 8 ∧ (fread file st.position 8).take 4 = dataId ∧
      readData path file st.pastHeader (readU32le (fread file st.position 8) 4) = .ok st' := by
  obtain ⟨hbefore, hround⟩ := hround
  obtain ⟨hlen, ⟨_, hread⟩ | ⟨hid, hread⟩ | ⟨_, _, rfl⟩⟩ := (readChunk_some_iff rfl).mp hround
  · obtain ⟨_, _, _, rfl⟩ := readFmt_ok_iff.mp hread
    rw [show (st.pastHeader.haveData) = false from hbefore] at hdata
    cases hdata
  · exact ⟨hlen, hid, hread⟩
  · rw [show (skipChunk st.pastHeader _).haveData = false from hbefore] at hdata
    cases hdata

/-- A loop that ends with data has made the round of the data chunk. -/
theorem exists_data_round (hloop : readLoop path file start = .ok st') (hdata : st'.haveData = true) :
    ∃ st, Relation.ReflTransGen (Round path file) start st ∧ Round path file st st' := by
  obtain ⟨hrounds, _⟩ := rounds_of_readLoop hloop
  rcases Relation.ReflTransGen.cases_tail hrounds with rfl | hlast
  · cases hdata
  · exact hlast

/-- What is accepted from a file that is not misaligned is well-formed. -/
theorem riffWave_of_read (hmis : ¬ Misaligned file) {data : WavData}
    (h : read path (some file) = .ok data) : RiffWave file data := by
  obtain ⟨hriff, stEnd, hloop, hcheck⟩ := read_ok h
  obtain ⟨hfmt, hdata, hmono, hsixteen, rfl⟩ := checkFormat_ok_iff.mp hcheck
  -- the data chunk lies behind whole aligned chunks
  obtain ⟨st, hbefore, hround⟩ := exists_data_round hloop hdata
  have hat := atChunk_of_rounds hriff hmis hbefore ⟨hround.1, (readChunk_moves hround.2).1⟩
  obtain ⟨hlen, hid, hread⟩ := readData_of_round hround hdata
  obtain ⟨hhave, hbody, rfl⟩ := readData_ok_iff.mp hread
  obtain ⟨chunks, hchunks, hst, hfile⟩ := hat
  rw [foldl_afterChunk] at hst
  cases hlast : lastFmt chunks with
  | none =>
    rw [hlast] at hst
    rw [hst] at hhave
    cases hhave
  | some fmt =>
    rw [hlast] at hst
    have hresult : st.result = ({} : WavData).setFormat (chunkBody fmt) := by rw [hst]; rfl
    change st.result.numChannels = 1 at hmono
    change st.result.bitsPerSample = 16 at hsixteen
    rw [hresult] at hmono hsixteen
    change readU16le (chunkBody fmt) 2 = 1 at hmono
    change readU16le (chunkBody fmt) 14 = 16 at hsixteen
    refine ⟨{
      header := file.take 12
      chunks := chunks
      fmt := fmt
      dataHeader := fread file st.position 8
      body := fread file (st.position + 8) (sizeAt file st)
      rest := file.drop (st.position + 8 + sizeAt file st)
      header_length := ?_
      header_riff := ?_
      header_wave := ((opensRiff_iff file).mp hriff).2.2
      chunks_not_data := fun c hc => (hchunks c hc).not_data
      chunks_pcm := fun c hc hfmt => ((hchunks c hc).fmt hfmt).1
      fmt_last := hlast
      fmt_mono := hmono
      fmt_sixteen := hsixteen
      dataHeader_length := hlen
      dataHeader_id := hid
      body_length := hbody }, ?_, ?_⟩
    · rw [List.length_take]
      exact Nat.min_eq_left ((opensRiff_iff file).mp hriff).1
    · rw [List.take_take]
      exact ((opensRiff_iff file).mp hriff).2.1
    · show file.take 12 ++ (encode chunks ++ (_ ++ (_ ++ _))) = file
      rw [← drop_eq_fread_append, ← drop_eq_fread_append, ← hfile, List.take_append_drop]
    · show _ = ({ st.result with samples := _ } : WavData)
      rw [hresult]
      simp only [WavFile.value, WavData.setFormat, hmono, hsixteen]
      rfl

/-- A chunk of a well-formed file behind which the reader does not find the next header. -/
theorem leavesInside_of_not_aligned {c : Chunk} {tail : List U8} (hdata : chunkId c ≠ dataId)
    (hpcm : chunkId c = fmtId → IsPcm c) (hc : ¬ Aligned c) (htail : 8 ≤ tail.length) :
    LeavesInside c.header (c.payload ++ tail) := by
  have hpayload : c.payload.length = chunkSize c + chunkSize c % 2 := c.payload_length
  by_cases hfmt : chunkId c = fmtId
  · obtain ⟨hsixteen, hformat⟩ := hpcm hfmt
    have hodd : chunkSize c % 2 = 1 := by
      by_contra heven
      refine hc ⟨hdata, fun _ => ⟨⟨hsixteen, hformat⟩, by omega⟩, fun hother => absurd hfmt hother⟩
    refine Or.inl ⟨hfmt, hsixteen, hodd, ?_, ?_⟩
    · show readU16le ((c.payload ++ tail).take (chunkSize c)) 0 = 1
      rw [List.take_append_of_le_length (chunkSize_le c)]
      exact hformat
    · show chunkSize c + 8 ≤ _
      rw [List.length_append]
      omega
  · have hmax : chunkSize c = 0xFFFFFFFF := by
      by_contra hmax
      exact hc ⟨hdata, fun hid => absurd hid hfmt, fun _ => hmax⟩
    refine Or.inr ⟨hfmt, hdata, hmax, ?_⟩
    rw [List.length_append]
    omega

/-- In a well-formed file that is not misaligned all chunks are aligned. -/
theorem WavFile.aligned (f : WavFile) (hmis : ¬ Misaligned f.bytes) : ∀ c ∈ f.chunks, Aligned c := by
  -- the first chunk that is not aligned would make the file misaligned
  suffices hinitial : ∀ initial, initial <+: f.chunks → ∀ c ∈ initial, Aligned c from
    hinitial f.chunks (List.prefix_refl f.chunks)
  intro initial hinit
  induction initial using List.reverseRecOn with
  | nil => exact fun c hc => absurd hc List.not_mem_nil
  | append_singleton initial c ih =>
    have hbefore := ih ((List.prefix_append initial [c]).trans hinit)
    rw [List.forall_mem_append]
    refine ⟨hbefore, fun c' hc' => ?_⟩
    obtain rfl := List.mem_singleton.mp hc'
    by_contra hc
    obtain ⟨after, hafter⟩ := hinit
    have hmem : c' ∈ f.chunks := by
      rw [← hafter]
      simp
    refine hmis ⟨f.opensRiff_bytes, initial, c'.header,
      c'.payload ++ (encode after ++ (f.dataHeader ++ (f.body ++ f.rest))), ?_, hbefore,
      length_header c', leavesInside_of_not_aligned (f.chunks_not_data c' hmem)
        (f.chunks_pcm c' hmem) hc ?_⟩
    · have hencode : encode f.chunks = encode initial ++ (c'.symbols ++ encode after) := by
        rw [← hafter, encode_append, encode_snoc, List.append_assoc]
      rw [f.drop_bytes, hencode, Record.symbols]
      simp only [List.append_assoc]
    · have hlen := f.dataHeader_length
      rw [List.length_append, List.length_append]
      omega

/-- Where the reader leaves a chunk inside, it reads a header there. -/
theorem round_of_leavesInside (path : String) {chunkHeader tail : List U8}
    (hdrop : file.drop st.position = chunkHeader ++ tail) (hlen : chunkHeader.length = 8)
    (hdata : st.haveData = false) (hleaves : LeavesInside chunkHeader tail) :
    ∃ next, Round path file st next ∧ ReadsHeader file next ∧
      next.position < st.position + 8 + riffFormat.extent chunkHeader := by
  have hread := fread_of_drop hdrop hlen
  have htail := drop_of_drop hdrop hlen
  have hfile := congrArg List.length hdrop
  rw [List.length_drop, List.length_append, hlen] at hfile
  rcases hleaves with ⟨hid, hsixteen, hodd, hpcm, hmore⟩ | ⟨hfmt, hnot, hmax, hmore⟩
  · refine ⟨_, ⟨hdata, (readChunk_some_iff hread).mpr ⟨hlen, Or.inl ⟨hid,
      readFmt_ok_iff.mpr ⟨hsixteen, ?_, ?_, rfl⟩⟩⟩⟩, ⟨hdata, ?_⟩, ?_⟩
    · rw [ReadState.pastHeader, fread, htail, List.length_take]
      omega
    · rw [ReadState.pastHeader, fread, htail]
      exact hpcm
    · show st.position + 8 + _ + 8 ≤ _
      omega
    · show st.position + 8 + _ < st.position + 8 + (_ + _)
      omega
  · have hskip : (readU32le chunkHeader 4 + readU32le chunkHeader 4 % 2).toNat = 0 := by
      have hsize : readU32le chunkHeader 4 = 0xFFFFFFFF := BitVec.eq_of_toNat_eq hmax
      rw [hsize]
      rfl
    refine ⟨_, ⟨hdata, (readChunk_some_iff hread).mpr ⟨hlen, Or.inr (Or.inr ⟨hfmt, hnot, rfl⟩)⟩⟩,
      ⟨hdata, ?_⟩, ?_⟩
    · show st.position + 8 + _ + 8 ≤ _
      omega
    · show st.position + 8 + _ < st.position + 8 + (_ + _)
      omega

/-- A misaligned file makes the reader take bytes inside a chunk for a header. -/
theorem not_headersOutside (path : String) (hmis : Misaligned file) : ¬ HeadersOutside path file := by
  intro houtside
  obtain ⟨hriff, chunks, chunkHeader, tail, hfile, haligned, hlen, hleaves⟩ := hmis
  have hrounds := rounds_chunks path haligned (show start.haveData = false from rfl) hfile
  have hdrop : file.drop (chunks.foldl afterChunk start).position = chunkHeader ++ tail := by
    rw [foldl_afterChunk]
    exact drop_of_drop hfile rfl
  have hdata : (chunks.foldl afterChunk start).haveData = false := by
    rw [foldl_afterChunk]
    cases lastFmt chunks <;> rfl
  obtain ⟨next, hround, hread, hinside⟩ := round_of_leavesInside path hdrop hlen hdata hleaves
  have hapart := houtside hriff _ next hrounds (.single hround) hread
  rw [fread_of_drop hdrop hlen] at hapart
  omega

/-- **The grammar of the reader.** The reader accepts exactly the well-formed files, with the data that
they hold, and never takes bytes inside a chunk for a header, if and only if the file is not
misaligned. -/
theorem reads_grammar_iff (path : String) (file : List U8) :
    ReadsGrammar path file ↔ ¬ Misaligned file := by
  constructor
  · rintro ⟨_, houtside⟩ hmis
    exact not_headersOutside path hmis houtside
  · intro hmis
    refine ⟨fun data => ⟨riffWave_of_read hmis, ?_⟩, headersOutside path hmis⟩
    rintro ⟨f, rfl, rfl⟩
    exact f.read_bytes path (f.aligned hmis)

/-- A fmt chunk with one byte more than usual, and its padding. -/
def oddFmtChunk : Chunk where
  header := fmtId ++ [17, 0, 0, 0]
  payload := [1, 0, 1, 0, 0x40, 0x1F, 0, 0, 0x80, 0x3E, 0, 0, 2, 0, 16, 0, 0, 0]
  header_length := rfl
  payload_length := rfl

/-- A well-formed file with such a chunk and two samples. -/
def oddFmtFile : WavFile where
  header := riffId ++ [42, 0, 0, 0] ++ waveId
  chunks := [oddFmtChunk]
  fmt := oddFmtChunk
  dataHeader := dataId ++ [4, 0, 0, 0]
  body := [1, 0, 0xFF, 0xFF]
  rest := []
  header_length := rfl
  header_riff := rfl
  header_wave := rfl
  chunks_not_data := by decide
  chunks_pcm c hc _ := by
    obtain rfl := List.mem_singleton.mp hc
    exact ⟨by decide, by decide⟩
  fmt_last := rfl
  fmt_mono := by decide
  fmt_sixteen := by decide
  dataHeader_length := rfl
  dataHeader_id := rfl
  body_length := by decide

/-- The loop on that file once it has read the fmt chunk. -/
def oddFmtState (position : Nat) : ReadState where
  position := position
  result := { sampleRate := 8000, numChannels := 1, bitsPerSample := 16 }
  haveFmt := true

/-- The padding is taken for the first byte of a header, whose size then leads past the data. -/
theorem odd_fmt_chunk_misread :
    RiffWave oddFmtFile.bytes oddFmtFile.value ∧
    read "odd.wav" (some oddFmtFile.bytes) =
      .error (message "odd.wav" "missing fmt or data chunk") ∧
    ¬ ReadsGrammar "odd.wav" oddFmtFile.bytes := by
  have hwave : RiffWave oddFmtFile.bytes oddFmtFile.value := ⟨oddFmtFile, rfl, rfl⟩
  have hread : read "odd.wav" (some oddFmtFile.bytes) =
      .error (message "odd.wav" "missing fmt or data chunk") := by
    have hfmt : readChunk "odd.wav" oddFmtFile.bytes start = .ok (some (oddFmtState 37)) := rfl
    have hskip : readChunk "odd.wav" oddFmtFile.bytes (oddFmtState 37) =
        .ok (some (oddFmtState 1167)) := rfl
    have hend : readChunk "odd.wav" oddFmtFile.bytes (oddFmtState 1167) = .ok none := rfl
    rw [read_of_opensRiff _ oddFmtFile.opensRiff_bytes, readLoop_next ⟨rfl, hfmt⟩,
      readLoop_next ⟨rfl, hskip⟩, readLoop_break rfl hend]
    rfl
  refine ⟨hwave, hread, ?_⟩
  rintro ⟨hgrammar, _⟩
  have haccepted := (hgrammar oddFmtFile.value).mpr hwave
  rw [hread] at haccepted
  cases haccepted

end Wav

end RtpStreamer
