import RtpStreamer.Jitter.Proofs.TrackedProofs
import RtpStreamer.Receiver.CheckedReceiver

/-!
# No access of the receive path is out of range

Every checked function returns, and returns what its unchecked counterpart computes. A run over any
datagrams therefore never reads or writes outside an array, never leaves a step index beyond 88, and
every successful pull has written all 160 samples.
-/

namespace RtpStreamer

open CheckedMemory

namespace Checked

/-! ## Parsing -/

/-- A datagram with a whole fixed header. -/
theorem exists_fixedHeader {data : List U8} (h : ¬ data.length < kHeaderBytes) :
    ∃ d0 d1 d2 d3 d4 d5 d6 d7 d8 d9 d10 d11 payload,
      data = d0 :: d1 :: d2 :: d3 :: d4 :: d5 :: d6 :: d7 :: d8 :: d9 :: d10 :: d11 :: payload := by
  rw [show kHeaderBytes = 12 from rfl] at h
  match data with
  | d0 :: d1 :: d2 :: d3 :: d4 :: d5 :: d6 :: d7 :: d8 :: d9 :: d10 :: d11 :: payload =>
    exact ⟨d0, d1, d2, d3, d4, d5, d6, d7, d8, d9, d10, d11, payload, rfl⟩
  | [] | [_] | [_, _] | [_, _, _] | [_, _, _, _] | [_, _, _, _, _] | [_, _, _, _, _, _]
  | [_, _, _, _, _, _, _] | [_, _, _, _, _, _, _, _] | [_, _, _, _, _, _, _, _, _]
  | [_, _, _, _, _, _, _, _, _, _] | [_, _, _, _, _, _, _, _, _, _, _] => simp at h

theorem parse_eq (order : ByteOrder) (data : List U8) :
    parse order data = some (RtpStreamer.parse order data) := by
  by_cases hlen : data.length < kHeaderBytes
  · have hnone : RtpStreamer.parse order data = none := by
      unfold RtpStreamer.parse
      split
      · simp only [List.length_cons, kHeaderBytes] at hlen
        omega
      · rfl
    rw [parse, if_pos hlen, hnone]
  · obtain ⟨d0, d1, d2, d3, d4, d5, d6, d7, d8, d9, d10, d11, payload, rfl⟩ :=
      exists_fixedHeader hlen
    unfold parse RtpStreamer.parse
    rw [if_neg hlen]
    by_cases hversion : d0 >>> 6 ≠ kVersion ∨ d0 &&& 0x3F ≠ 0
    · simp only [List.getElem?_cons_zero, Option.bind_eq_bind, Option.bind_some, if_pos hversion]
      rfl
    · by_cases htype : d1 &&& 0x7F ≠ kPayloadTypePcmu ∧ d1 &&& 0x7F ≠ kPayloadTypeAdpcm ∧
          d1 &&& 0x7F ≠ kPayloadTypePcm
      · simp only [List.getElem?_cons_zero, List.getElem?_cons_succ, Option.bind_eq_bind,
          Option.bind_some, if_neg hversion, if_pos htype]
        rfl
      · simp only [List.getElem?_cons_zero, List.getElem?_cons_succ, Option.bind_eq_bind,
          Option.bind_some, if_neg hversion, if_neg htype]
        rfl

/-! ## ADPCM -/

/-- The state as the source holds it. -/
def rawState (state : AdpcmState) : RawState where
  predictor := state.predictor
  stepIndex := state.stepIndex

theorem lowNibble_eq (byte : U8) : byte &&& 0x0F = (lowNibble byte).setWidth 8 := by
  revert byte; decide

theorem highNibble_eq (byte : U8) : (byte >>> 4) &&& 0x0F = (highNibble byte).setWidth 8 := by
  revert byte; decide

theorem code_bits (code : Code) :
    ((code.setWidth 8 : U8) &&& 0x08 ≠ 0 ↔ code &&& 0x8 ≠ 0) ∧
    ((code.setWidth 8 : U8) &&& 0x04 ≠ 0 ↔ code &&& 0x4 ≠ 0) ∧
    ((code.setWidth 8 : U8) &&& 0x02 ≠ 0 ↔ code &&& 0x2 ≠ 0) ∧
    ((code.setWidth 8 : U8) &&& 0x01 ≠ 0 ↔ code &&& 0x1 ≠ 0) ∧
    (code.setWidth 8 : U8).toNat = code.toNat := by
  revert code; decide

/-- Both table reads are in range, and the new step index is one. -/
theorem decodeSample_eq (code : Code) (state : AdpcmState) :
    decodeSample (code.setWidth 8) (rawState state) =
      some ((RtpStreamer.decodeSample code state).1,
        rawState (RtpStreamer.decodeSample code state).2) := by
  obtain ⟨h8, h4, h2, h1, hcode⟩ := code_bits code
  have hstep : kStepTable[(rawState state).stepIndex.toNat]? = some state.step :=
    Vector.getElem?_eq_getElem (Nat.lt_succ_of_le state.stepIndex_le)
  have hadj : kIndexTable[(code.setWidth 8 : U8).toNat]? = some (kIndexTable.get code.toFin) := by
    rw [hcode]
    exact Vector.getElem?_eq_getElem code.isLt
  have hle := (RtpStreamer.decodeSample code state).2.stepIndex_le
  unfold decodeSample
  simp only [hstep, hadj, Option.bind_eq_bind, Option.bind_some, h8, h4, h2, h1]
  exact if_pos hle

/-- The byte that round `b` of the decoding loop reads. -/
theorem round_byte {packed rest : List U8} {byte : U8} {b : Nat}
    (h : packed.drop b = byte :: rest) : packed[2 * b / 2]? = some byte := by
  rw [Nat.mul_div_cancel_left b (by decide), ← List.head?_drop, h]
  rfl

/-- A round that decodes both nibbles of its byte. -/
theorem adpcmDecodeRound_two {packed rest : List U8} {byte : U8} {total b : Nat}
    (hdrop : packed.drop b = byte :: rest) (htwo : 2 * b + 1 < total) {state : AdpcmState}
    {out out₁ out₂ : OutBuffer}
    (hlow : out.write (2 * b) (RtpStreamer.decodeSample (lowNibble byte) state).1 = some out₁)
    (hhigh : out₁.write (2 * b + 1) (RtpStreamer.decodeSample (highNibble byte)
      (RtpStreamer.decodeSample (lowNibble byte) state).2).1 = some out₂) :
    adpcmDecodeRound packed total b (rawState state, out) =
      some (rawState (RtpStreamer.decodeSample (highNibble byte)
        (RtpStreamer.decodeSample (lowNibble byte) state).2).2, out₂) := by
  unfold adpcmDecodeRound
  simp only [round_byte hdrop, Option.bind_eq_bind, Option.bind_some, lowNibble_eq byte,
    highNibble_eq byte, decodeSample_eq, hlow, hhigh, if_pos htwo]
  rfl

/-- A last round that decodes the low nibble only. -/
theorem adpcmDecodeRound_one {packed rest : List U8} {byte : U8} {total b : Nat}
    (hdrop : packed.drop b = byte :: rest) (hone : ¬ 2 * b + 1 < total) {state : AdpcmState}
    {out out' : OutBuffer}
    (hlow : out.write (2 * b) (RtpStreamer.decodeSample (lowNibble byte) state).1 = some out') :
    adpcmDecodeRound packed total b (rawState state, out) =
      some (rawState (RtpStreamer.decodeSample (lowNibble byte) state).2, out') := by
  unfold adpcmDecodeRound
  simp only [round_byte hdrop, Option.bind_eq_bind, Option.bind_some, lowNibble_eq byte,
    decodeSample_eq, hlow, if_neg hone]
  rfl

/-- The rounds of the decoding loop from round `b` on write what the list decoder returns for the
bytes that are left. -/
theorem adpcmDecodeFrame_rounds (packed : List U8) (f : Nat → I16) (total : Nat)
    (htotal : total ≤ kFrameSamples) (rest : List U8) (n : Nat) (state : AdpcmState) :
    ∀ (b : Nat) (out : OutBuffer), total = 2 * b + n → packed.drop b = rest →
      (n + 1) / 2 ≤ rest.length →
      (∀ j, j < n → f (2 * b + j) = (RtpStreamer.adpcmDecodeFrame rest n state).1.getD j 0) →
      Cells.Filled f (2 * b) out →
      ∃ out', forUp (adpcmDecodeRound packed total) ((n + 1) / 2) b (rawState state, out) =
          some (rawState (RtpStreamer.adpcmDecodeFrame rest n state).2, out') ∧
        Cells.Filled f total out' := by
  induction rest, n, state using adpcmDecodeFrame.induct with
  | case1 rest state =>
    intro b out htot _ _ _ hfilled
    refine ⟨out, by simp [forUp, RtpStreamer.adpcmDecodeFrame], ?_⟩
    rw [htot]
    exact hfilled
  | case2 n state =>
    intro b out _ _ hlen
    simp only [List.length_nil] at hlen
    omega
  | case3 byte rest state =>
    intro b out htot hdrop _ hf hfilled
    obtain ⟨out', hwrite, hfilled'⟩ := hfilled.write (by omega)
    have hlow := hf 0 (by decide)
    simp only [RtpStreamer.adpcmDecodeFrame, List.getD_cons_zero, Nat.add_zero] at hlow
    rw [hlow] at hwrite
    refine ⟨out', ?_, ?_⟩
    · show (adpcmDecodeRound packed total b (rawState state, out)).bind some = _
      rw [adpcmDecodeRound_one hdrop (by omega) hwrite]
      rfl
    · rw [htot]
      exact hfilled'
  | case4 byte rest n state low state₁ h₁ high state₂ h₂ samples state₃ h₃ ih =>
    intro b out htot hdrop hlen hf hfilled
    have hrest : packed.drop (b + 1) = rest := by
      rw [← List.drop_drop, hdrop]
      rfl
    simp only [RtpStreamer.adpcmDecodeFrame, h₁, h₂, h₃] at hf ⊢
    rw [h₃] at ih
    have hlow := hf 0 (by omega)
    have hhigh := hf 1 (by omega)
    simp only [List.getD_cons_zero, List.getD_cons_succ, Nat.add_zero] at hlow hhigh
    obtain ⟨out₁, hwrite₁, hfilled₁⟩ := hfilled.write (by omega)
    obtain ⟨out₂, hwrite₂, hfilled₂⟩ := hfilled₁.write (by omega)
    rw [hlow] at hwrite₁
    rw [hhigh] at hwrite₂
    have hround : adpcmDecodeRound packed total b (rawState state, out) =
        some (rawState state₂, out₂) := by
      have htwo : 2 * b + 1 < total := by omega
      have h := adpcmDecodeRound_two hdrop htwo (by rw [h₁]; exact hwrite₁)
        (by rw [h₁, h₂]; exact hwrite₂)
      rw [h₁, h₂] at h
      exact h
    obtain ⟨out₃, hloop, hfilled₃⟩ := ih (b + 1) out₂ (by omega) hrest
      (by simp only [List.length_cons] at hlen; omega)
      (fun j hj => by
        have h := hf (j + 2) (by omega)
        rw [show 2 * (b + 1) + j = 2 * b + (j + 2) by omega, h]
        rfl) hfilled₂
    refine ⟨out₃, ?_, hfilled₃⟩
    rw [show (n + 2 + 1) / 2 = (n + 1) / 2 + 1 by omega]
    show (adpcmDecodeRound packed total b (rawState state, out)).bind _ = _
    rw [hround]
    exact hloop

/-! ## Decoding a slot -/

/-- A frame that has been written whole. -/
theorem eq_padFrame_of_filled {samples : List I16} {out : OutBuffer}
    (h : Cells.Filled (samples.getD · 0) kFrameSamples out) : out = (padFrame samples).map some := by
  rw [h.eq_ofFn]
  ext1 i hi
  rw [Vector.getElem_map, Vector.getElem_ofFn]
  show _ = some (Vector.ofFn fun i : Fin kFrameSamples => samples.getD i 0)[i]
  rw [Vector.getElem_ofFn]

/-- The padding loop completes a frame whose samples have been written. -/
theorem zeroFrom_eq {samples : List I16} {start : Nat} {out : OutBuffer}
    (hle : start ≤ kFrameSamples) (hlen : samples.length ≤ start)
    (h : Cells.Filled (samples.getD · 0) start out) :
    zeroFrom start out = some ((padFrame samples).map some) := by
  obtain ⟨out', hloop, hfilled⟩ := fill_spec (samples.getD · 0)
    (fun i out => out.write i 0) start (kFrameSamples - start) (by omega)
    (fun i out hlo _ => by rw [List.getD_eq_default _ _ (by omega)]) h
  rw [show start + (kFrameSamples - start) = kFrameSamples by omega] at hfilled
  rw [zeroFrom, hloop, eq_padFrame_of_filled hfilled]

theorem zeroFrom_zero (out : OutBuffer) : zeroFrom 0 out = some (silence.map some) := by
  rw [← padFrame_nil]
  exact zeroFrom_eq (Nat.zero_le _) (Nat.le_refl 0) (Cells.filled_zero _ out)

theorem readSamples_getD (order : ByteOrder) (numSamples : Nat) :
    ∀ (bytes : List U8) (i : Nat), i < numSamples → 2 * numSamples ≤ bytes.length →
      ∃ b0 b1, bytes[2 * i]? = some b0 ∧ bytes[2 * i + 1]? = some b1 ∧
        (readSamples order numSamples bytes).getD i 0 = loadU16 order b0 b1 := by
  induction numSamples with
  | zero => intro bytes i hi; omega
  | succ n ih =>
    intro bytes i hi hlen
    match bytes with
    | [] => simp at hlen
    | [_] => simp at hlen; omega
    | b0 :: b1 :: rest =>
      cases i with
      | zero => exact ⟨b0, b1, rfl, rfl, rfl⟩
      | succ i =>
        obtain ⟨c0, c1, h0, h1, hget⟩ := ih rest i (by omega)
          (by simp only [List.length_cons] at hlen; omega)
        refine ⟨c0, c1, ?_, ?_, hget⟩
        · rw [show 2 * (i + 1) = 2 * i + 1 + 1 by omega]
          exact h0
        · rw [show 2 * (i + 1) + 1 = 2 * i + 1 + 1 + 1 by omega]
          exact h1

theorem readSamples_length_le (order : ByteOrder) (numSamples : Nat) :
    ∀ bytes : List U8, (readSamples order numSamples bytes).length ≤ numSamples := by
  induction numSamples with
  | zero => intro bytes; simp [readSamples]
  | succ n ih =>
    intro bytes
    rcases bytes with _ | ⟨b0, _ | ⟨b1, rest⟩⟩
    · simp [readSamples]
    · simp [readSamples]
    · have := ih rest
      simp only [readSamples, List.length_cons]
      omega

theorem adpcmDecodeFrame_length_le (packed : List U8) (n : Nat) (state : AdpcmState) :
    (RtpStreamer.adpcmDecodeFrame packed n state).1.length ≤ n := by
  induction packed, n, state using adpcmDecodeFrame.induct with
  | case1 packed state => simp [RtpStreamer.adpcmDecodeFrame]
  | case2 n state => simp [RtpStreamer.adpcmDecodeFrame]
  | case3 byte rest state => simp [RtpStreamer.adpcmDecodeFrame]
  | case4 byte packed n state low state₁ h₁ high state₂ h₂ out state₃ h₃ ih =>
    rw [h₃] at ih
    have ih : out.length ≤ n := ih
    simp only [RtpStreamer.adpcmDecodeFrame, h₁, h₂, h₃, List.length_cons]
    omega

theorem unpackAdpcmState_eq (in0 in1 in2 in3 : U8) (packed : List U8) :
    unpackAdpcmState (in0 :: in1 :: in2 :: in3 :: packed) =
      some (rawState (RtpStreamer.unpackAdpcmState #v[in0, in1, in2, in3])) := rfl

/-- The ADPCM branch of `decode_slot` after the header has been read. -/
theorem decodeAdpcm_eq (packed : List U8) {numSamples : Nat}
    (hpacked : (numSamples + 1) / 2 ≤ packed.length) (hbound : numSamples ≤ kFrameSamples)
    (state : AdpcmState) (out : OutBuffer) :
    ((adpcmDecodeFrame packed numSamples (rawState state, out)).bind
        fun s => zeroFrom numSamples s.2) =
      some ((padFrame (RtpStreamer.adpcmDecodeFrame packed numSamples state).1).map some) := by
  obtain ⟨out', hloop, hfilled⟩ := adpcmDecodeFrame_rounds packed
    ((RtpStreamer.adpcmDecodeFrame packed numSamples state).1.getD · 0) numSamples hbound packed
    numSamples state 0 out (by omega) rfl hpacked (fun j _ => by rw [Nat.mul_zero, Nat.zero_add])
    (Cells.filled_zero _ out)
  rw [adpcmDecodeFrame, hloop]
  exact zeroFrom_eq hbound (adpcmDecodeFrame_length_le _ _ _) hfilled

/-- A loop that writes one sample in each round, and the zeros behind them. -/
theorem fill_zeroFrom (samples : List I16) {numSamples : Nat} (hbound : numSamples ≤ kFrameSamples)
    (hlen : samples.length ≤ numSamples) {round : Nat → OutBuffer → Option OutBuffer}
    (hround : ∀ i out, i < numSamples → round i out = out.write i (samples.getD i 0))
    (out : OutBuffer) :
    ((forUp round numSamples 0 out).bind fun out => zeroFrom numSamples out) =
      some ((padFrame samples).map some) := by
  obtain ⟨out', hloop, hfilled⟩ := fill_spec (samples.getD · 0) round 0 numSamples (by omega)
    (fun i out _ hi => hround i out (by omega)) (Cells.filled_zero _ out)
  rw [Nat.zero_add] at hfilled
  rw [hloop]
  exact zeroFrom_eq hbound hlen hfilled

/-- The bytes of a slot's payload that a decoder may read. -/
theorem payload_length (slot : Slot) : slot.payload.toList.length = 512 := by
  rw [Vector.length_toList]
  rfl

/-- Every branch of `decode_slot` stays inside the payload, the tables and the output, and writes the
whole frame. -/
theorem decodeSlot_eq (order : ByteOrder) (slot : Slot) (out : OutBuffer) :
    decodeSlot order slot out = some ((RtpStreamer.decodeSlot order slot).map some) := by
  have hframe : kFrameSamples = 160 := rfl
  have hhdr : kAdpcmStateHeaderBytes = 4 := rfl
  have hlen := payload_length slot
  have hple : slot.payloadLen ≤ 512 := slot.payloadLen_le
  unfold decodeSlot RtpStreamer.decodeSlot decodeBytes
  generalize slot.payload.toList = payload at hlen
  by_cases hpcm : slot.payloadType = kPayloadTypePcm
  · rw [if_pos hpcm, if_pos hpcm]
    have hbound := Nat.min_le_right (slot.payloadLen / kBytesPerSample) kFrameSamples
    generalize min (slot.payloadLen / kBytesPerSample) kFrameSamples = numSamples at hbound
    refine fill_zeroFrom _ hbound (readSamples_length_le order _ _) (fun i out hi => ?_) out
    obtain ⟨b0, b1, h0, h1, hget⟩ := readSamples_getD order numSamples payload i hi (by omega)
    simp only [pcmRound, h0, h1, hget, Option.bind_eq_bind, Option.bind_some]
  rw [if_neg hpcm, if_neg hpcm]
  by_cases hpcmu : slot.payloadType = kPayloadTypePcmu
  · rw [if_pos hpcmu, if_pos hpcmu]
    have hbound := Nat.min_le_right slot.payloadLen kFrameSamples
    generalize min slot.payloadLen kFrameSamples = numSamples at hbound
    refine fill_zeroFrom _ hbound (ulawDecodeFrame_length_le _ _) (fun i out hi => ?_) out
    have hi' : i < payload.length := by omega
    have hget : (ulawDecodeFrame payload numSamples).getD i 0 = ulawToLinear payload[i] := by
      have hlt : i < (payload.take numSamples).length := by
        rw [List.length_take]
        omega
      rw [ulawDecodeFrame, List.getD_eq_getElem _ _ (by rwa [List.length_map]),
        List.getElem_map, List.getElem_take]
    simp only [ulawRound, List.getElem?_eq_getElem hi', hget, Option.bind_eq_bind, Option.bind_some]
  rw [if_neg hpcmu, if_neg hpcmu]
  by_cases hadpcm : slot.payloadType = kPayloadTypeAdpcm ∧ kAdpcmStateHeaderBytes ≤ slot.payloadLen
  · rw [if_pos hadpcm, if_pos hadpcm]
    obtain ⟨in0, in1, in2, in3, packed, rfl⟩ := exists_header payload (by omega)
    have hpacked : packed.length = 508 := by
      simp only [List.length_cons] at hlen
      omega
    have hbound := Nat.min_le_right ((slot.payloadLen - kAdpcmStateHeaderBytes) * 2) kFrameSamples
    have hdecode := decodeAdpcm_eq packed (by omega) hbound
      (RtpStreamer.unpackAdpcmState #v[in0, in1, in2, in3]) out
    have hdrop : (in0 :: in1 :: in2 :: in3 :: packed).drop kAdpcmStateHeaderBytes = packed := rfl
    rw [unpackAdpcmState_eq, hdrop]
    exact hdecode
  · rw [if_neg hadpcm, if_neg hadpcm]
    exact zeroFrom_zero out

/-! ## Storing a packet -/

/-- After `i` bytes the copy has the payload in front and the old bytes behind. -/
theorem memcpyPayload_eq (payload : List U8) (dest : Vector U8 kSlotPayloadBytes) :
    memcpyPayload payload (min payload.length kSlotPayloadBytes) dest =
      some (JitterBuffer.memcpyPayload dest payload) := by
  obtain ⟨dest', hloop, hcopied⟩ := forUp_spec (copyRound payload)
    (I := fun i (d : Vector U8 kSlotPayloadBytes) => ∀ j (hj : j < kSlotPayloadBytes),
      d[j] = if j < i then payload.getD j dest[j] else dest[j])
    (min payload.length kSlotPayloadBytes) 0 dest
    (fun i d _ hi hd => by
      have hlt : i < payload.length := by omega
      have hcap : i < kSlotPayloadBytes := by omega
      refine ⟨d.set i payload[i], ?_, ?_⟩
      · simp only [copyRound, List.getElem?_eq_getElem hlt, Option.bind_eq_bind, Option.bind_some,
          dif_pos hcap]
        rfl
      · intro j hj
        rw [Vector.getElem_set]
        by_cases heq : i = j
        · subst heq
          rw [if_pos rfl, if_pos (by omega), List.getD_eq_getElem _ _ hlt]
        · rw [if_neg heq, hd j hj]
          by_cases hji : j < i
          · rw [if_pos hji, if_pos (by omega)]
          · rw [if_neg hji, if_neg (by omega)])
    (fun j hj => by rw [if_neg (Nat.not_lt_zero j)])
  rw [memcpyPayload, hloop]
  refine congrArg some ?_
  ext1 j hj
  show _ = (Vector.ofFn fun i : Fin kSlotPayloadBytes => payload.getD i (dest.get i))[j]
  rw [hcopied j hj, Vector.getElem_ofFn]
  by_cases hlt : j < payload.length
  · rw [if_pos (by omega)]
    rfl
  · rw [if_neg (by omega), List.getD_eq_default _ _ (Nat.le_of_not_lt hlt)]
    rfl

variable {P : Platform}

theorem getElem?_slots (slots : Vector Slot kCapacity) (seq : U16) :
    slots[seq.toNat % kCapacity]? = some (slots.get (JitterBuffer.slotIndex seq)) :=
  Vector.getElem?_eq_getElem (Nat.mod_lt _ (by decide))

theorem setSlot_eq (slots : Vector Slot kCapacity) (seq : U16) (slot : Slot) :
    setSlot slots (seq.toNat % kCapacity) slot =
      some (setAt slots (JitterBuffer.slotIndex seq) slot) :=
  dif_pos (Nat.mod_lt _ (by decide))

/-- A push stays inside the 32 slots and the 512 bytes of its slot. -/
theorem push_eq (jb : JitterBuffer P) (packet : Packet) (arrival : U32) :
    push jb packet arrival = some (jb.push packet arrival) := by
  unfold push JitterBuffer.push JitterBuffer.place
  generalize jb.noteArrival packet arrival = jb
  by_cases hlate : jb.frameIndex packet.sequenceNumber < jb.cursor
  · simp only [if_pos hlate]
    rfl
  by_cases hfar : jb.frameIndex packet.sequenceNumber - jb.cursor ≥ kCapacity
  · simp only [if_neg hlate, if_pos hfar]
    rfl
  simp only [if_neg hlate, if_neg hfar, getElem?_slots, Option.bind_eq_bind, Option.bind_some,
    memcpyPayload_eq, setSlot_eq]
  by_cases hdup : jb.holds packet.sequenceNumber = true
  · rw [if_pos hdup]
    exact if_pos hdup
  · rw [if_neg hdup]
    exact if_neg hdup

/-! ## Producing a frame -/

theorem conceal_eq (jb : JitterBuffer P) (out : OutBuffer) :
    conceal jb out = some (jb.conceal.1.map some, jb.conceal.2) := by
  unfold conceal JitterBuffer.conceal
  by_cases hsilence : jb.concealsSilence = true
  · simp only [if_pos hsilence, zeroFrom_zero, Option.bind_eq_bind, Option.bind_some]
    rfl
  · simp only [if_neg hsilence]
    generalize P.fade (jb.consecutiveConcealments + 1) = gain
    obtain ⟨out', hloop, hfilled⟩ := fill_spec
      ((jb.lastRealFrame.map gain).toList.getD · 0) (fadeRound gain jb.lastRealFrame) 0
      kFrameSamples (by omega)
      (fun i out _ hi => by
        have hi' : i < kFrameSamples := by omega
        have hget : (jb.lastRealFrame.map gain).toList.getD i 0 = gain jb.lastRealFrame[i] := by
          rw [List.getD_eq_getElem _ _ (by rw [Vector.length_toList]; exact hi'),
            Vector.getElem_toList, Vector.getElem_map]
        simp only [fadeRound, Vector.getElem?_eq_getElem hi', hget, Option.bind_eq_bind,
          Option.bind_some])
      (Cells.filled_zero _ out)
    rw [Nat.zero_add] at hfilled
    have hframe : padFrame (jb.lastRealFrame.map gain).toList = jb.lastRealFrame.map gain := by
      rw [← Vector.toList_inj, padFrame_toList (by rw [Vector.length_toList]), Vector.length_toList,
        Nat.sub_self, List.replicate_zero, List.append_nil]
    simp only [hloop, Option.bind_eq_bind, Option.bind_some]
    rw [eq_padFrame_of_filled hfilled, hframe]
    rfl

/-- A pull stays inside the slots and the frame, copies only samples it has written, and leaves in the
output buffer the frame it returns. -/
theorem tryPullDueFrame_eq (jb : JitterBuffer P) (now : U32) (out : OutBuffer) :
    tryPullDueFrame jb now out =
      some ((jb.tryPullDueFrame now).1.isSome,
        ((jb.tryPullDueFrame now).1.map (·.map some)).getD out, (jb.tryPullDueFrame now).2) := by
  unfold tryPullDueFrame
  cases hdue : jb.isDue now with
  | false =>
    rw [JitterBuffer.tryPullDueFrame_of_not_due hdue]
    rfl
  | true =>
    simp only [getElem?_slots, Option.bind_eq_bind, Option.bind_some, Bool.not_true, reduceIte,
      Bool.false_eq_true]
    by_cases hh : jb.holds jb.cursorSequence = true
    · rw [JitterBuffer.tryPullDueFrame_of_holds hdue hh]
      refine (if_pos hh).trans ?_
      simp only [decodeSlot_eq, Option.bind_some, setSlot_eq, Cells.contents_map_some]
      rfl
    · rw [JitterBuffer.tryPullDueFrame_of_not_holds hdue (Bool.eq_false_iff.mpr hh)]
      refine (if_neg hh).trans ?_
      have hconceal := JitterBuffer.playConcealed_eq jb
      rw [Prod.ext_iff] at hconceal
      simp only [conceal_eq, Option.bind_some]
      exact congrArg some (Prod.ext rfl (Prod.ext (congrArg (Vector.map some) hconceal.1)
        hconceal.2))

/-! ## Runs -/

/-- One event makes its call on the jitter buffer, or none. -/
theorem receive_eq (jb : JitterBuffer P) (event : ReceiverEvent) :
    receive jb event = some
      (((event.call P.byteOrder).bind jb.returned).map (·.map some),
        (event.call P.byteOrder).elim jb jb.next) := by
  cases event with
  | datagram data arrival =>
    unfold receive ReceiverEvent.call
    simp only [parse_eq, Option.bind_eq_bind, Option.bind_some]
    cases RtpStreamer.parse P.byteOrder data with
    | none => rfl
    | some parsed =>
      simp only [push_eq, Option.bind_some]
      rfl
  | pull now =>
    unfold receive
    simp only [tryPullDueFrame_eq, Option.bind_eq_bind, Option.bind_some]
    show some (_, _) = some (((jb.tryPullDueFrame now).1).map _, (jb.tryPullDueFrame now).2)
    cases (jb.tryPullDueFrame now).1 <;> rfl
  | idle => rfl

/-- The frames of the successful pulls, and the buffer at the end. -/
theorem receiveAll_eq (options : Options)
    (junk : Vector (Vector U8 kSlotPayloadBytes) kCapacity) (events : List ReceiverEvent) :
    ∀ jb : JitterBuffer P, receiveAll jb events = some
      ((((jitterSystem P options junk).traceFrom jb
        (events.filterMap (ReceiverEvent.call P.byteOrder))).filterMap id).map (·.map some),
        (events.filterMap (ReceiverEvent.call P.byteOrder)).foldl JitterBuffer.next jb) := by
  induction events with
  | nil => intro jb; rfl
  | cons event events ih =>
    intro jb
    unfold receiveAll
    simp only [receive_eq, ih, Option.bind_eq_bind, Option.bind_some]
    cases hcall : event.call P.byteOrder with
    | none =>
      rw [List.filterMap_cons_none hcall]
      rfl
    | some call =>
      rw [List.filterMap_cons_some hcall]
      show some ((((jb.returned call).map _).toList ++ _ : List OutBuffer), _) = some
        (((jb.returned call :: (jitterSystem P options junk).traceFrom (jb.next call) _).filterMap
          id).map _, _)
      cases jb.returned call with
      | none => rfl
      | some out => rfl

end Checked

/-- **Hostile datagrams.** Whatever bytes arrive, the checked receive path returns: no access is out of
range, no uninitialised sample is copied, and no step index leaves 0..88. Every successful pull has
written all 160 samples of its buffer. A frame that comes from a packet is a function of the payload
type and the full payload of the datagram that packet was parsed from. -/
theorem hostile_datagrams_safe (P : Platform) (options : Options)
    (junk : Vector (Vector U8 kSlotPayloadBytes) kCapacity) (events : List ReceiverEvent) :
    let M := jitterSystem P options junk
    let calls := events.filterMap (ReceiverEvent.call P.byteOrder)
    Checked.receiveAll (JitterBuffer.fresh P options junk) events =
      some (((M.trace calls).filterMap id).map (·.map some), M.run calls) ∧
    ∀ (m n : Nat) (out : Frame),
      ((trackedSystem P options junk).trace calls)[m]? = some (some out, some n) →
      ∃ data arrival parsed, ReceiverEvent.datagram data arrival ∈ events ∧
        parse P.byteOrder data = some parsed ∧
        calls[n]? = ReceiverEvent.call P.byteOrder (.datagram data arrival) ∧
        out = decodePayload P.byteOrder parsed.header.payloadType parsed.payload := by
  intro M calls
  refine ⟨Checked.receiveAll_eq options junk events _, ?_⟩
  intro m n out hout
  obtain ⟨packet, arrival, _, hcall, _, _, hdecode⟩ := outputs_spec hout
  obtain ⟨event, hmem, hevent⟩ := List.mem_filterMap.mp (List.mem_of_getElem? hcall)
  cases event with
  | datagram data clock =>
    obtain ⟨parsed, hparse, hpush⟩ := Option.map_eq_some_iff.mp hevent
    obtain ⟨rfl, rfl⟩ := Call.push.inj hpush
    exact ⟨data, clock, parsed, hmem, hparse, by rw [hcall, hevent], hdecode⟩
  | pull now => exact absurd (Option.some.inj hevent) (by simp)
  | idle => exact absurd (Option.some.inj hevent) (by simp)

end RtpStreamer
