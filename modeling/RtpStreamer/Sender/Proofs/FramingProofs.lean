import RtpStreamer.Codec.Proofs.AdpcmProofs
import RtpStreamer.Jitter.Exact
import RtpStreamer.Jitter.Proofs.PendingProofs
import RtpStreamer.Packet.Proofs.RtpPacketProofs
import RtpStreamer.Sender.Sender

/-!
# Payloads of the sender, decoded by the receiver

The receiver finds the number of samples of a frame from the length of its payload alone. For PCM and
mu-law that determines it. An ADPCM payload has one byte for every two samples, so an odd frame decodes
with one sample too many: the zero nibble that fills its last byte.
-/

namespace RtpStreamer

/-! ## Decoding a payload of the sender -/

theorem readSamples_storeU16 (order : ByteOrder) (frame : List I16) :
    readSamples order frame.length (frame.flatMap (storeU16 order)) = frame := by
  induction frame with
  | nil => rfl
  | cons sample frame ih =>
    obtain ⟨b0, b1, hs, hl⟩ := load_store_U16 order sample
    simp only [List.flatMap_cons, hs, List.length_cons, List.cons_append, List.nil_append,
      readSamples, hl, ih]

theorem storeU16_flatMap_length (order : ByteOrder) (frame : List I16) :
    (frame.flatMap (storeU16 order)).length = 2 * frame.length := by
  induction frame with
  | nil => rfl
  | cons sample frame ih =>
    obtain ⟨b0, b1, hs, _⟩ := load_store_U16 order sample
    simp only [List.flatMap_cons, hs, List.length_append, ih, List.length_cons, List.length_nil]
    omega

/-- Decoding one sample more than an odd frame has decodes the zero nibble of its last byte. -/
theorem adpcmDecodeFrame_padding (pcm : List I16) (state : AdpcmState) (hodd : pcm.length % 2 = 1) :
    (adpcmDecodeFrame (adpcmEncodeFrame pcm state).1 (pcm.length + 1) state).1 =
      predictorTrace state pcm ++ [(decodeSample 0 (adpcmEncodeFrame pcm state).2).1] := by
  induction pcm, state using adpcmEncodeFrame.induct with
  | case1 state => simp at hodd
  | case2 sample state =>
    simp only [adpcmEncodeFrame, List.length_singleton, adpcmDecodeFrame, lowNibble_setWidth,
      highNibble_setWidth, decodeSample_encodeSample, predictorTrace, List.singleton_append]
  | case3 sample sample' pcm state low state₁ h₁ high state₂ h₂ out state₃ h₃ ih =>
    have hlow := decodeSample_of_encodeSample h₁
    have hhigh := decodeSample_of_encodeSample h₂
    have hodd : pcm.length % 2 = 1 := by
      simp only [List.length_cons] at hodd
      omega
    rw [show (sample :: sample' :: pcm).length + 1 = pcm.length + 1 + 2 by simp]
    simp only [adpcmEncodeFrame, h₁, h₂, adpcmDecodeFrame, lowNibble_pack, highNibble_pack, hlow,
      hhigh, ih hodd, predictorTrace, List.cons_append]

/-- The number of samples the receiver decodes from an ADPCM frame of `m` samples. -/
theorem decodePayload_adpcm (order : ByteOrder) (state : AdpcmState) {frame : List I16}
    (hle : frame.length ≤ kFrameSamples) :
    decodePayload order kPayloadTypeAdpcm (framePayload order .adpcm state frame).1 =
      padFrame (adpcmDecodeFrame (adpcmEncodeFrame frame state).1
        (2 * ((frame.length + 1) / 2)) state).1 := by
  have hframe : kFrameSamples = 160 := rfl
  have hhdr : kAdpcmStateHeaderBytes = 4 := rfl
  have hlen : (framePayload order .adpcm state frame).1.length = 4 + (frame.length + 1) / 2 := by
    show ((packAdpcmState state).toList ++ (adpcmEncodeFrame frame state).1).length = _
    rw [List.length_append, Vector.length_toList, adpcmEncodeFrame_length, hhdr]
  have hnum : min ((4 + (frame.length + 1) / 2 - kAdpcmStateHeaderBytes) * 2) kFrameSamples =
      2 * ((frame.length + 1) / 2) := by omega
  unfold decodePayload decodeBytes
  rw [if_neg (by decide), if_neg (by decide), if_pos ⟨rfl, by omega⟩, hlen]
  show padFrame (adpcmDecodeFrame (adpcmEncodeFrame frame state).1
    (min ((4 + (frame.length + 1) / 2 - kAdpcmStateHeaderBytes) * 2) kFrameSamples)
    (unpackAdpcmState (packAdpcmState state))).1 = _
  rw [unpackAdpcmState_pack, hnum]

/-- The payload the sender builds decodes to the codec's reconstruction, padded with zeros, except
for an ADPCM frame of odd length. -/
theorem decodePayload_framePayload (order : ByteOrder) (codec : CodecName) (state : AdpcmState)
    {frame : List I16} (hle : frame.length ≤ kFrameSamples)
    (heven : codec = .adpcm → frame.length % 2 = 0) :
    decodePayload order codec.payloadType (framePayload order codec state frame).1 =
      padFrame (reconstruct codec state frame) := by
  cases codec with
  | pcm =>
    have hlen := storeU16_flatMap_length order frame
    show padFrame (readSamples order (min ((frame.flatMap (storeU16 order)).length / 2)
      kFrameSamples) (frame.flatMap (storeU16 order))) = padFrame frame
    rw [hlen, show min (2 * frame.length / 2) kFrameSamples = frame.length by omega,
      readSamples_storeU16]
  | ulaw =>
    show padFrame (ulawDecodeFrame (ulawEncodeFrame frame)
      (min (ulawEncodeFrame frame).length kFrameSamples)) = _
    rw [ulawEncodeFrame_length, Nat.min_eq_left hle, ulawDecodeFrame_encode]
    rfl
  | adpcm =>
    have heven := heven rfl
    show decodePayload order kPayloadTypeAdpcm _ = _
    rw [decodePayload_adpcm order state hle,
      show 2 * ((frame.length + 1) / 2) = frame.length by omega, adpcmDecodeFrame_encode]
    rfl

/-- An ADPCM frame of odd length decodes with one sample appended. -/
theorem decodePayload_framePayload_odd (order : ByteOrder) (state : AdpcmState)
    {frame : List I16} (hle : frame.length ≤ kFrameSamples) (hodd : frame.length % 2 = 1) :
    decodePayload order kPayloadTypeAdpcm (framePayload order .adpcm state frame).1 =
      padFrame (predictorTrace state frame ++
        [(decodeSample 0 (adpcmEncodeFrame frame state).2).1]) := by
  rw [decodePayload_adpcm order state hle,
    show 2 * ((frame.length + 1) / 2) = frame.length + 1 by omega,
    adpcmDecodeFrame_padding frame state hodd]

/-- The zero nibble moves the predictor up by an eighth of the step. -/
theorem decodeSample_zero (state : AdpcmState) :
    (decodeSample 0 state).1 = 0 ↔ state.predictor.toInt + state.step >>> (3 : Nat) = 0 := by
  have hclamp := ofInt_clampPredictor_toInt (state.predictor.toInt + state.step >>> (3 : Nat))
  have hval : (decodeSample 0 state).1 =
      BitVec.ofInt 16 (clampPredictor (state.predictor.toInt + state.step >>> (3 : Nat))) := rfl
  rw [hval]
  constructor
  · intro h
    rw [h] at hclamp
    have h0 : clampPredictor (state.predictor.toInt + state.step >>> (3 : Nat)) = 0 := hclamp.symm
    unfold clampPredictor at h0
    split_ifs at h0 <;> omega
  · intro h
    rw [h]
    rfl

@[simp] theorem reconstruct_length (codec : CodecName) (state : AdpcmState) (frame : List I16) :
    (reconstruct codec state frame).length = frame.length := by
  cases codec <;> simp [reconstruct]

/-! ## One packet through the buffer -/

namespace JitterBuffer

/-- The first packet is stored, whatever its sequence number. -/
theorem stores_fresh {P : Platform} (options : Options)
    (junk : Vector (Vector U8 kSlotPayloadBytes) kCapacity) (packet : Packet) (arrival : U32) :
    (fresh P options junk).stores packet arrival = true := by
  have hindex : ((fresh P options junk).noteArrival packet arrival).frameIndex
      packet.sequenceNumber = 0 := by
    show (packet.sequenceNumber - packet.sequenceNumber).toInt = 0
    rw [BitVec.sub_self]
    rfl
  have hcursor : ((fresh P options junk).noteArrival packet arrival).cursor = 0 := rfl
  rw [stores_iff, hindex, hcursor]
  refine ⟨le_refl _, by decide, ?_⟩
  have hfree := fresh_not_occupied (P := P) options junk (slotIndex packet.sequenceNumber)
  show ((fresh P options junk).holds packet.sequenceNumber) = false
  simp [holds, hfree]

end JitterBuffer

open JitterBuffer

/-- A packet that is pushed into a fresh buffer and pulled at the end of the stream comes out as its
decoded payload. -/
theorem trace_push_end_pull (P : Platform) (options : Options)
    (junk : Vector (Vector U8 kSlotPayloadBytes) kCapacity) (packet : Packet) :
    ((trackedSystem P options junk).trace [.push packet 0, .markStreamEnded, .pull 0])[2]? =
      some (some (decodePayload P.byteOrder packet.payloadType packet.payload), some 0) := by
  have hstores : JitterBuffer.stores ((jitterSystem P options junk).run []) packet 0 = true :=
    stores_fresh options junk packet 0
  have hpending : Pending ((trackedSystem P options junk).run [.push packet 0, .markStreamEnded]) 0
      packet 0 := (pending_of_stores hstores).markStreamEnded
  have hbuffer : ((trackedSystem P options junk).run [.push packet 0, .markStreamEnded]).buffer =
      ((fresh P options junk).push packet 0).markStreamEnded := (tracked_buffer options junk _).1
  have hsource : ((trackedSystem P options junk).run [.push packet 0, .markStreamEnded]).source
      (.pull 0) = some 0 := by
    refine hpending.source ?_ ?_ <;> rw [hbuffer]
    · -- the frame is due
      rw [isDue_iff]
      refine ⟨push_started _ _ _, ?_, Or.inl rfl⟩
      show ((fresh P options junk).push packet 0).framesPlayed.toInt ≤
        ((fresh P options junk).push packet 0).highestFrameIndexSeen
      rw [push_framesPlayed, push_highestFrameIndexSeen]
      simp [baseAfter, fresh]
    · show (((fresh P options junk).push packet 0).baseSequence.setWidth 32 +
        ((fresh P options junk).push packet 0).framesPlayed).setWidth 16 = _
      rw [push_baseSequence, push_framesPlayed]
      simp [baseAfter, fresh]
  obtain ⟨packet', arrival, hcall, _, _, hframe⟩ := source_spec hsource
  obtain ⟨rfl, _⟩ := Call.push.inj (Option.some.inj hcall)
  rw [DetSystem.trace_getElem?]
  show some ((trackedSystem P options junk).obs
    ((trackedSystem P options junk).run [.push packet 0, .markStreamEnded]) (.pull 0)) = _
  show some (JitterBuffer.returned _ _, Tracked.source _ _) = _
  rw [hsource, (tracked_buffer options junk _).1, hframe]

/-! ## Framing -/

/-- Whenever the payload the sender builds for `frame` is pushed and its packet is output by a later
pull, the output is the codec's reconstruction followed by zeros. -/
def FramingHolds (codec : CodecName) (state : AdpcmState) (frame : List I16) : Prop :=
  ∀ (P : Platform) (options : Options) (junk : Vector (Vector U8 kSlotPayloadBytes) kCapacity)
    (calls : List Call) (m n : Nat) (packet : Packet) (arrival : U32) (out : Frame),
    calls[n]? = some (.push packet arrival) → packet.payloadType = codec.payloadType →
    packet.payload = (framePayload P.byteOrder codec state frame).1 →
    ((trackedSystem P options junk).trace calls)[m]? = some (some out, some n) →
    out.toList = reconstruct codec state frame ++
      List.replicate (kFrameSamples - frame.length) 0

/-- One sample past the frame is zero only if that sample is. -/
theorem padFrame_append_singleton {samples : List I16} {sample : I16}
    (h : samples.length < kFrameSamples) :
    padFrame (samples ++ [sample]) = padFrame samples ↔ sample = 0 := by
  have hlen : (samples ++ [sample]).length = samples.length + 1 := by simp
  have hzeros : List.replicate (kFrameSamples - samples.length) (0 : I16) =
      0 :: List.replicate (kFrameSamples - (samples.length + 1)) 0 := by
    rw [← List.replicate_succ]
    congr 1
    omega
  rw [← Vector.toList_inj, padFrame_toList (by omega), padFrame_toList (by omega), hlen, hzeros,
    List.append_assoc, List.append_cancel_left_eq]
  simp

/-- **Framing.** The sender's payload and the receiver's decoder are inverse framings exactly when the
frame is not an odd one coded by ADPCM, or the zero nibble that pads it happens to decode to zero. -/
theorem framing_holds_iff (codec : CodecName) (state : AdpcmState) (frame : List I16)
    (hle : frame.length ≤ kFrameSamples) :
    FramingHolds codec state frame ↔
      codec ≠ .adpcm ∨ frame.length % 2 = 0 ∨
        (adpcmEncodeFrame frame state).2.predictor.toInt +
          (adpcmEncodeFrame frame state).2.step >>> (3 : Nat) = 0 := by
  have hlen := reconstruct_length codec state frame
  have hpad : (padFrame (reconstruct codec state frame)).toList = _ := padFrame_toList (by omega)
  rw [hlen] at hpad
  constructor
  · intro h
    by_cases hcodec : codec = .adpcm
    · subst hcodec
      refine Or.inr ?_
      by_cases heven : frame.length % 2 = 0
      · exact Or.inl heven
      · -- play the packet alone and look at the sample behind the frame
        refine Or.inr ?_
        let packet : Packet := {
          sequenceNumber := 0
          rtpTimestamp := 0
          payloadType := kPayloadTypeAdpcm
          payload := (framePayload .little .adpcm state frame).1 }
        have hplay := trace_push_end_pull (exactPlatform .little fun _ sample => sample) {}
          (Vector.replicate _ (Vector.replicate _ 0)) packet
        have hout := h _ _ _ _ 2 0 packet 0 _ rfl rfl rfl hplay
        rw [← hpad] at hout
        have hframe := Vector.toList_inj.mp hout
        have hodd := decodePayload_framePayload_odd .little state hle (by omega)
        have hlen : (predictorTrace state frame).length < kFrameSamples := by
          have hframe : kFrameSamples = 160 := rfl
          rw [predictorTrace_length]
          omega
        exact (decodeSample_zero _).mp
          ((padFrame_append_singleton hlen).mp (hodd.symm.trans hframe))
    · exact Or.inl hcodec
  · intro hcond P options junk calls m n packet arrival out hcall htype hpayload hout
    obtain ⟨packet', arrival', _, hcall', _, _, hdecode⟩ := outputs_spec hout
    rw [hcall] at hcall'
    obtain ⟨rfl, _⟩ := Call.push.inj (Option.some.inj hcall')
    rw [hdecode, htype, hpayload, ← hpad]
    refine congrArg Vector.toList ?_
    by_cases hodd : codec = .adpcm ∧ frame.length % 2 = 1
    · -- the padding nibble decodes to the zero that was wanted
      obtain ⟨rfl, hodd⟩ := hodd
      have hzero : (decodeSample 0 (adpcmEncodeFrame frame state).2).1 = 0 := by
        rw [decodeSample_zero]
        rcases hcond with h | h | h
        · exact absurd rfl h
        · omega
        · exact h
      have hlen : (predictorTrace state frame).length < kFrameSamples := by
        have hframe : kFrameSamples = 160 := rfl
        rw [predictorTrace_length]
        omega
      show decodePayload P.byteOrder kPayloadTypeAdpcm _ = padFrame (predictorTrace state frame)
      rw [decodePayload_framePayload_odd P.byteOrder state hle hodd]
      exact (padFrame_append_singleton hlen).mpr hzero
    · refine decodePayload_framePayload P.byteOrder codec state hle fun hcodec => ?_
      by_contra heven
      exact hodd ⟨hcodec, by omega⟩

/-- ADPCM frames two samples correctly. -/
theorem framing_holds_even : FramingHolds .adpcm {} [1000, 2000] :=
  (framing_holds_iff .adpcm {} [1000, 2000] (by decide)).mpr (Or.inr (Or.inl (by decide)))

/-- A frame of the single sample 1000 is coded by the predictor 11, and decodes as 11 followed by 13:
the padding nibble is played as a sample of its own. -/
theorem framing_fails_odd :
    reconstruct .adpcm {} [1000] = [11] ∧
    ((trackedSystem (exactPlatform .little fun _ sample => sample) {}
      (Vector.replicate _ (Vector.replicate _ 0))).trace
        [.push {
          sequenceNumber := 0
          rtpTimestamp := 0
          payloadType := kPayloadTypeAdpcm
          payload := (framePayload .little .adpcm {} [1000]).1 } 0, .markStreamEnded, .pull 0])[2]? =
      some (some (padFrame [11, 13]), some 0) ∧
    ¬ FramingHolds .adpcm {} [1000] := by
  have hplay := trace_push_end_pull (exactPlatform .little fun _ sample => sample) {}
    (Vector.replicate _ (Vector.replicate _ 0)) {
      sequenceNumber := 0
      rtpTimestamp := 0
      payloadType := kPayloadTypeAdpcm
      payload := (framePayload .little .adpcm {} [1000]).1 }
  have hdecode : decodePayload .little kPayloadTypeAdpcm
      (framePayload .little .adpcm {} [1000]).1 = padFrame [11, 13] := by
    rw [decodePayload_framePayload_odd .little {} (by decide) (by decide)]
    exact congrArg padFrame (by decide)
  have hplay := hplay.trans (congrArg (fun out => some (some out, some 0)) hdecode)
  refine ⟨by decide, hplay, fun h => ?_⟩
  have hout := h _ _ _ _ 2 0 _ 0 _ rfl rfl rfl hplay
  rw [padFrame_toList (by decide)] at hout
  exact absurd (congrArg (fun out => out[1]?) hout) (by decide)

end RtpStreamer
