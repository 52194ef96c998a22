import RtpStreamer.Codec.Adpcm
import Mathlib.Tactic.IntervalCases

/-!
# The ADPCM decoder runs in lockstep with the encoder

Encoder and decoder quantize by different code: the encoder subtracts and halves greedily, the
decoder tests the bits of the code. `decodeSample_encodeSample` shows that they agree on one sample;
a frame follows by induction along `adpcmEncodeFrame`, and a session because the header carries the
whole state.
-/

namespace RtpStreamer

/-! ## One sample -/

theorem Quantizer.bit_cases (q : Quantizer) (bit : Code) (halfStep : Int) :
    q.bit bit halfStep = q ∨ q.bit bit halfStep =
      { code := q.code ||| bit, diff := q.diff - halfStep, diffq := q.diffq + halfStep } := by
  unfold Quantizer.bit
  split_ifs
  · exact Or.inr rfl
  · exact Or.inl rfl

/-- The three magnitude bits add to `diffq` exactly what the decoder adds for them. -/
theorem Quantizer.bits_diffq {q : Quantizer} {step : Int} (hcode : q.code = 0 ∨ q.code = 0x8)
    (hdiffq : q.diffq = step >>> (3 : Nat)) :
    (((q.bit 0x4 step).bit 0x2 (step >>> (1 : Nat))).bit 0x1 (step >>> (2 : Nat))).diffq =
      codeDiffq step
        (((q.bit 0x4 step).bit 0x2 (step >>> (1 : Nat))).bit 0x1 (step >>> (2 : Nat))).code := by
  rcases q.bit_cases 0x4 step with h | h <;> rw [h] <;>
    rcases bit_cases _ 0x2 (step >>> (1 : Nat)) with h | h <;> rw [h] <;>
    rcases bit_cases _ 0x1 (step >>> (2 : Nat)) with h | h <;> rw [h] <;>
    rcases hcode with hc | hc <;> simp [codeDiffq, hc, hdiffq]

/-- Halving twice is a quarter. -/
theorem shiftRight_half_half (step : Int) :
    step >>> (1 : Nat) >>> (1 : Nat) = step >>> (2 : Nat) := by
  rw [← Int.shiftRight_add]

/-- The quantized difference of the encoder is the one its code stands for. -/
theorem quantize_diffq (step diff : Int) :
    (quantize step diff).diffq = codeDiffq step (quantize step diff).code := by
  simp only [quantize, shiftRight_half_half]
  apply Quantizer.bits_diffq
  · split_ifs
    · exact Or.inr rfl
    · exact Or.inl rfl
  · split_ifs <;> rfl

/-- The decoder reproduces the encoder's predictor and its next state. -/
theorem decodeSample_encodeSample (sample : I16) (state : AdpcmState) :
    decodeSample (encodeSample sample state).1 state =
      ((encodeSample sample state).2.predictor, (encodeSample sample state).2) := by
  simp only [decodeSample, encodeSample]
  rw [← quantize_diffq]

/-- The decoder follows a step of the encoder. -/
theorem decodeSample_of_encodeSample {sample : I16} {state state' : AdpcmState} {code : Code}
    (h : encodeSample sample state = (code, state')) :
    decodeSample code state = (state'.predictor, state') := by
  have hstep := decodeSample_encodeSample sample state
  rwa [h] at hstep

/-! ## Nibble packing -/

theorem lowNibble_pack (low high : Code) :
    lowNibble (low.setWidth 8 ||| (high.setWidth 8 <<< 4)) = low := by
  revert low high; decide

theorem highNibble_pack (low high : Code) :
    highNibble (low.setWidth 8 ||| (high.setWidth 8 <<< 4)) = high := by
  revert low high; decide

theorem lowNibble_setWidth (low : Code) : lowNibble (low.setWidth 8) = low := by
  revert low; decide

/-- An odd last sample is packed with a zero high nibble. -/
theorem highNibble_setWidth (low : Code) : highNibble (low.setWidth 8) = 0 := by
  revert low; decide

/-! ## One frame -/

@[simp] theorem predictorTrace_length (pcm : List I16) :
    ∀ state, (predictorTrace state pcm).length = pcm.length := by
  induction pcm with
  | nil => intro state; rfl
  | cons sample pcm ih => intro state; simp [predictorTrace, ih]

/-- A frame takes `(num_samples + 1) / 2` bytes. -/
@[simp] theorem adpcmEncodeFrame_length (pcm : List I16) (state : AdpcmState) :
    (adpcmEncodeFrame pcm state).1.length = (pcm.length + 1) / 2 := by
  induction pcm, state using adpcmEncodeFrame.induct with
  | case1 state => simp [adpcmEncodeFrame]
  | case2 sample state => simp [adpcmEncodeFrame]
  | case3 sample sample' pcm state low state₁ h₁ high state₂ h₂ out state₃ h₃ ih =>
    simp only [adpcmEncodeFrame, h₁, h₂, List.length_cons, ih]
    omega

/-- The state after coding one sample. -/
def afterSample (state : AdpcmState) (sample : I16) : AdpcmState := (encodeSample sample state).2

theorem adpcmEncodeFrame_state (pcm : List I16) (state : AdpcmState) :
    (adpcmEncodeFrame pcm state).2 = pcm.foldl afterSample state := by
  induction pcm, state using adpcmEncodeFrame.induct with
  | case1 state => rfl
  | case2 sample state => rfl
  | case3 sample sample' pcm state low state₁ h₁ high state₂ h₂ out state₃ h₃ ih =>
    have hstate₁ : afterSample state sample = state₁ := congrArg Prod.snd h₁
    have hstate₂ : afterSample state₁ sample' = state₂ := congrArg Prod.snd h₂
    simp only [adpcmEncodeFrame, h₁, h₂, List.foldl_cons, hstate₁, hstate₂, ih]

/-- Decoding the first samples of a frame yields the encoder's first predictors and leaves the decoder
where the encoder was after them. -/
theorem adpcmDecodeFrame_take (pcm : List I16) (state : AdpcmState) :
    ∀ n, n ≤ pcm.length →
      adpcmDecodeFrame (adpcmEncodeFrame pcm state).1 n state =
        (predictorTrace state (pcm.take n), (pcm.take n).foldl afterSample state) := by
  induction pcm, state using adpcmEncodeFrame.induct with
  | case1 state =>
    intro n hn
    obtain rfl : n = 0 := Nat.le_zero.mp hn
    simp only [adpcmDecodeFrame, List.take_zero, predictorTrace, List.foldl_nil]
  | case2 sample state =>
    intro n hn
    match n, hn with
    | 0, _ => simp only [adpcmDecodeFrame, List.take_zero, predictorTrace, List.foldl_nil]
    | 1, _ =>
      simp only [adpcmEncodeFrame, adpcmDecodeFrame, lowNibble_setWidth, decodeSample_encodeSample,
        List.take_succ_cons, List.take_zero, predictorTrace, List.foldl_cons, List.foldl_nil,
        afterSample]
  | case3 sample sample' pcm state low state₁ h₁ high state₂ h₂ out state₃ h₃ ih =>
    have hstate₁ : afterSample state sample = state₁ := congrArg Prod.snd h₁
    have hstate₂ : afterSample state₁ sample' = state₂ := congrArg Prod.snd h₂
    have hlow := decodeSample_of_encodeSample h₁
    have hhigh := decodeSample_of_encodeSample h₂
    intro n hn
    match n, hn with
    | 0, _ => simp only [adpcmDecodeFrame, List.take_zero, predictorTrace, List.foldl_nil]
    | 1, _ =>
      simp only [adpcmEncodeFrame, h₁, h₂, adpcmDecodeFrame, lowNibble_pack, hlow,
        List.take_succ_cons, List.take_zero, predictorTrace, List.foldl_cons, List.foldl_nil, hstate₁]
    | n + 2, hn =>
      have hrest := ih n (Nat.le_of_succ_le_succ (Nat.le_of_succ_le_succ hn))
      simp only [adpcmEncodeFrame, h₁, h₂, adpcmDecodeFrame, lowNibble_pack, highNibble_pack, hlow,
        hhigh, hrest, List.take_succ_cons, predictorTrace, List.foldl_cons, hstate₁, hstate₂]

/-- Decoding a frame from the encoder's starting state yields the encoder's predictors and leaves
the decoder in the encoder's final state. -/
theorem adpcmDecodeFrame_encode (pcm : List I16) (state : AdpcmState) :
    adpcmDecodeFrame (adpcmEncodeFrame pcm state).1 pcm.length state =
      (predictorTrace state pcm, (adpcmEncodeFrame pcm state).2) := by
  rw [adpcmDecodeFrame_take pcm state pcm.length (Nat.le_refl _), List.take_length,
    adpcmEncodeFrame_state]

/-! ## The state header -/

/-- A word is put together again from its two bytes. -/
theorem join_bytes (v : U16) :
    ((v >>> 8).setWidth 8).setWidth 16 <<< 8 ||| ((v &&& 0xFF).setWidth 8).setWidth 16 = v := by
  apply BitVec.eq_of_getElem_eq
  intro i hi
  simp only [BitVec.getElem_or, BitVec.getElem_shiftLeft, BitVec.getElem_setWidth,
    BitVec.getLsbD_setWidth, BitVec.getLsbD_ushiftRight, BitVec.getLsbD_and]
  interval_cases i <;> simp

/-- The header carries the whole state. -/
theorem unpackAdpcmState_pack (state : AdpcmState) :
    unpackAdpcmState (packAdpcmState state) = state := by
  ext1
  · exact join_bytes state.predictor
  · exact if_neg (Nat.not_lt.mpr state.stepIndex_le)

/-! ## A session -/

theorem decodeAlone_encodeFrame (state : AdpcmState) (pcm : List I16) :
    decodeAlone (encodeFrame state pcm) =
      (predictorTrace state pcm, (adpcmEncodeFrame pcm state).2) := by
  simp only [decodeAlone, encodeFrame, unpackAdpcmState_pack, adpcmDecodeFrame_encode]

/-- Frame `k` of a session, decoded from its own header. -/
theorem decodeAlone_session (frames : List (List I16)) :
    ∀ (state : AdpcmState) (k : Nat),
      (encodeSession state frames)[k]?.map decodeAlone =
        frames[k]?.map fun pcm =>
          (predictorTrace (encoderState state (frames.take k)) pcm,
            encoderState state (frames.take (k + 1))) := by
  induction frames with
  | nil => intro state k; simp [encodeSession]
  | cons pcm frames ih =>
    intro state k
    cases k with
    | zero => simp [encodeSession, decodeAlone_encodeFrame, encoderState]
    | succ k => simpa [encodeSession, encoderState] using ih (adpcmEncodeFrame pcm state).2 k

/-- Decoding each frame alone gives the frames of the session in which none was lost. -/
theorem decodeContinuous_session (frames : List (List I16)) :
    ∀ state : AdpcmState,
      (encodeSession state frames).map (fun frame => (decodeAlone frame).1) =
        decodeContinuous state (encodeSession state frames) := by
  induction frames with
  | nil => intro state; simp [encodeSession, decodeContinuous]
  | cons pcm frames ih =>
    intro state
    simp only [encodeSession, List.map_cons, decodeAlone_encodeFrame, decodeContinuous]
    simp only [encodeFrame, adpcmDecodeFrame_encode, ih]

/-- **Lockstep and loss isolation.** Frame `k`, decoded from its own header, yields the predictors
the encoder held after each of its samples and ends in the encoder's state after it. So the frames
that arrive decode as they would have in a session that lost none. -/
theorem adpcm_lockstep (state : AdpcmState) (frames : List (List I16)) :
    (∀ k : Nat, (encodeSession state frames)[k]?.map decodeAlone =
      frames[k]?.map fun pcm =>
        (predictorTrace (encoderState state (frames.take k)) pcm,
          encoderState state (frames.take (k + 1)))) ∧
    ∀ k : Nat, (encodeSession state frames)[k]?.map (fun frame => (decodeAlone frame).1) =
      (decodeContinuous state (encodeSession state frames))[k]? := by
  refine ⟨decodeAlone_session frames state, fun k => ?_⟩
  rw [← decodeContinuous_session, List.getElem?_map]

end RtpStreamer
