import RtpStreamer.Codec.Proofs.AdpcmProofs
import Mathlib.Algebra.Order.Group.Unbundled.Int
import Mathlib.Tactic.Linarith

/-!
# The error of one ADPCM sample

The quantizer subtracts the step, its half and its quarter greedily, and truncates each of them on its
own. `Quantizer.bit_bounds` is what one of the three tests leaves; chained, they bound what is left of
a difference below two steps. A larger difference sets all three bits.

The two regimes are `encodeSample_near` and `encodeSample_far`.
-/

namespace RtpStreamer

/-! ## Distances -/

/-- How far the predictor is from `sample`. -/
def AdpcmState.distance (state : AdpcmState) (sample : I16) : Int :=
  |sample.toInt - state.predictor.toInt|

theorem AdpcmState.distance_nonneg (state : AdpcmState) (sample : I16) :
    0 ≤ state.distance sample := abs_nonneg _

/-- Samples and predictors are 16-bit values. -/
theorem AdpcmState.distance_le (state : AdpcmState) (sample : I16) :
    state.distance sample ≤ 65535 := by
  have h₁ := sample.toInt_lt
  have h₂ := sample.le_toInt
  have h₃ := state.predictor.toInt_lt
  have h₄ := state.predictor.le_toInt
  rw [AdpcmState.distance, abs_le]
  omega

theorem AdpcmState.distance_of_lt {state : AdpcmState} {sample : I16}
    (h : state.predictor.toInt < sample.toInt) :
    state.distance sample = sample.toInt - state.predictor.toInt := abs_of_pos (by omega)

theorem AdpcmState.distance_of_gt {state : AdpcmState} {sample : I16}
    (h : sample.toInt < state.predictor.toInt) :
    state.distance sample = state.predictor.toInt - sample.toInt := by
  rw [AdpcmState.distance, abs_of_neg (by omega), Int.neg_sub]

/-- Clamping to the 16-bit range brings a value closer to every sample. -/
theorem clampPredictor_dist_le (value : Int) (sample : I16) :
    |sample.toInt - clampPredictor value| ≤ |sample.toInt - value| := by
  have h₁ := sample.toInt_lt
  have h₂ := sample.le_toInt
  unfold clampPredictor
  split_ifs with hlow hhigh
  · rw [abs_of_nonneg (by omega), abs_of_nonneg (by omega)]
    omega
  · rw [abs_of_nonpos (by omega), abs_of_nonpos (by omega)]
    omega
  · exact le_refl _

/-- A value between two 16-bit values is not clamped. -/
theorem clampPredictor_of_mem {value : Int} (hlow : -32768 ≤ value) (hhigh : value ≤ 32767) :
    clampPredictor value = value := by
  rw [clampPredictor, if_neg (by omega), if_neg (by omega)]

/-! ## The step table -/

theorem kStepTable_bounds (i : Fin 89) : 7 ≤ kStepTable.get i ∧ kStepTable.get i ≤ 32767 := by
  revert i
  decide

theorem AdpcmState.step_bounds (state : AdpcmState) : 7 ≤ state.step ∧ state.step ≤ 32767 :=
  kStepTable_bounds _

/-- The fractions of the step, each truncated on its own. -/
theorem shiftRight_fractions (step : Int) :
    step >>> (1 : Nat) = step / 2 ∧ step >>> (2 : Nat) = step / 4 ∧ step >>> (3 : Nat) = step / 8 :=
  ⟨Int.shiftRight_eq_div_pow step 1, Int.shiftRight_eq_div_pow step 2,
    Int.shiftRight_eq_div_pow step 3⟩

/-- The largest quantized difference of a state: the three fractions of the step and the eighth that
every code stands for. -/
def AdpcmState.stride (state : AdpcmState) : Int :=
  state.step + state.step >>> (1 : Nat) + state.step >>> (2 : Nat) + state.step >>> (3 : Nat)

theorem AdpcmState.stride_eq (state : AdpcmState) :
    state.stride = state.step >>> (3 : Nat) + state.step + state.step >>> (1 : Nat) +
      state.step >>> (2 : Nat) := by
  unfold AdpcmState.stride
  omega

/-- The truncated fractions of the step add up to less than the step. -/
theorem AdpcmState.stride_bounds (state : AdpcmState) :
    state.step ≤ state.stride ∧ state.stride < 2 * state.step := by
  have hstep := state.step_bounds
  obtain ⟨hhalf, hquarter, heighth⟩ := shiftRight_fractions state.step
  unfold AdpcmState.stride
  omega

/-! ## The greedy quantizer -/

/-- What has been subtracted from the difference has been added to `diffq`. -/
theorem Quantizer.bit_sum (q : Quantizer) (bit : Code) (halfStep : Int) :
    (q.bit bit halfStep).diff + (q.bit bit halfStep).diffq = q.diff + q.diffq := by
  unfold Quantizer.bit
  split_ifs
  · simp only
    omega
  · rfl

/-- One test leaves at most `r` of a difference of at most `halfStep + r`. -/
theorem Quantizer.bit_bounds {q : Quantizer} (bit : Code) (halfStep r : Int) (hpos : 0 ≤ q.diff)
    (hle : q.diff ≤ halfStep + r) (hr : halfStep ≤ r + 1) :
    0 ≤ (q.bit bit halfStep).diff ∧ (q.bit bit halfStep).diff ≤ r := by
  unfold Quantizer.bit
  split_ifs with h
  · simp only
    omega
  · omega

theorem Quantizer.bit_pos {q : Quantizer} {bit : Code} {halfStep : Int} (h : halfStep ≤ q.diff) :
    q.bit bit halfStep =
      { code := q.code ||| bit, diff := q.diff - halfStep, diffq := q.diffq + halfStep } :=
  if_pos h

theorem Quantizer.bit_neg {q : Quantizer} {bit : Code} {halfStep : Int} (h : q.diff < halfStep) :
    q.bit bit halfStep = q :=
  if_neg (by omega)

/-- The quantizer after the sign of the difference has been taken. -/
def Quantizer.ofDiff (step diff : Int) : Quantizer where
  code := if diff < 0 then 0x8 else 0
  diff := |diff|
  diffq := step >>> (3 : Nat)

theorem quantize_eq (step diff : Int) :
    quantize step diff =
      (((Quantizer.ofDiff step diff).bit 0x4 step).bit 0x2 (step >>> (1 : Nat))).bit 0x1
        (step >>> (2 : Nat)) := by
  rw [← shiftRight_half_half]
  unfold quantize Quantizer.ofDiff
  by_cases h : diff < 0
  · simp only [if_pos h, abs_of_neg h]
  · simp only [if_neg h, abs_of_nonneg (Int.not_lt.mp h)]

/-- Below two steps the quantized difference misses the difference by an eighth of the step and two
more at most: the three tests leave at most a quarter and one, and `diffq` starts at an eighth. -/
theorem quantize_near {step diff : Int} (h : |diff| < 2 * step) :
    abs (|diff| - (quantize step diff).diffq) ≤ step >>> (3 : Nat) + 2 := by
  obtain ⟨hhalf, hquarter, heighth⟩ := shiftRight_fractions step
  have hq₀ : 0 ≤ (Quantizer.ofDiff step diff).diff ∧
      (Quantizer.ofDiff step diff).diff < 2 * step := ⟨abs_nonneg _, h⟩
  have hsum₀ : (Quantizer.ofDiff step diff).diff + (Quantizer.ofDiff step diff).diffq = |diff| + step / 8 :=
    congrArg (|diff| + ·) heighth
  rw [quantize_eq, hhalf, hquarter, heighth]
  generalize Quantizer.ofDiff step diff = q at hq₀ hsum₀
  have hq₁ := q.bit_bounds 0x4 step (step - 1) hq₀.1 (by omega) (by omega)
  have hsum₁ := q.bit_sum 0x4 step
  generalize q.bit 0x4 step = q₁ at hq₁ hsum₁
  have hq₂ := q₁.bit_bounds 0x2 (step / 2) (step / 2) hq₁.1 (by omega) (by omega)
  have hsum₂ := q₁.bit_sum 0x2 (step / 2)
  generalize q₁.bit 0x2 (step / 2) = q₂ at hq₂ hsum₂
  have hq₃ := q₂.bit_bounds 0x1 (step / 4) (step / 4 + 1) hq₂.1 (by omega) (by omega)
  have hsum₃ := q₂.bit_sum 0x1 (step / 4)
  rw [abs_le]
  omega

/-- From two steps on every test succeeds. -/
theorem quantize_far {step diff : Int} (hstep : 0 ≤ step) (h : 2 * step ≤ |diff|) :
    (quantize step diff).code = (Quantizer.ofDiff step diff).code ||| 0x4 ||| 0x2 ||| 0x1 ∧
      (quantize step diff).diffq = step >>> (3 : Nat) + step + step >>> (1 : Nat) +
        step >>> (2 : Nat) := by
  obtain ⟨hhalf, hquarter, -⟩ := shiftRight_fractions step
  have hfour : step ≤ (Quantizer.ofDiff step diff).diff := by
    show step ≤ |diff|
    omega
  have htwo : step / 2 ≤ (Quantizer.ofDiff step diff).diff - step := by
    show step / 2 ≤ |diff| - step
    omega
  have hone : step / 4 ≤ (Quantizer.ofDiff step diff).diff - step - step / 2 := by
    show step / 4 ≤ |diff| - step - step / 2
    omega
  rw [quantize_eq, hhalf, hquarter, Quantizer.bit_pos hfour, Quantizer.bit_pos (q := ⟨_, _, _⟩) htwo,
    Quantizer.bit_pos (q := ⟨_, _, _⟩) hone]
  exact ⟨rfl, rfl⟩

/-! ## The sign and the magnitude of the code -/

theorem and_or_of_and_eq_zero {code bit mask : Code} (h : bit &&& mask = 0) :
    (code ||| bit) &&& mask = code &&& mask := by
  rw [BitVec.and_or_distrib_right, h]
  exact BitVec.or_zero

theorem Quantizer.bit_code_and {q : Quantizer} {bit mask : Code} {halfStep : Int}
    (h : bit &&& mask = 0) : (q.bit bit halfStep).code &&& mask = q.code &&& mask := by
  rcases q.bit_cases bit halfStep with hq | hq <;> rw [hq]
  exact and_or_of_and_eq_zero h

/-- The sign bit of the code is the sign of the difference. -/
theorem quantize_sign (step diff : Int) :
    (quantize step diff).code &&& 0x8 ≠ 0 ↔ diff < 0 := by
  rw [quantize_eq, Quantizer.bit_code_and (by decide), Quantizer.bit_code_and (by decide),
    Quantizer.bit_code_and (by decide)]
  show (if diff < 0 then (0x8 : Code) else 0) &&& 0x8 ≠ 0 ↔ diff < 0
  split_ifs with h
  · exact iff_of_true (by decide) h
  · exact iff_of_false (by decide) h

/-- The highest magnitude bit is set from one step on. -/
theorem quantize_four (step diff : Int) : (quantize step diff).code &&& 0x4 = 0 ↔ |diff| < step := by
  rw [quantize_eq, Quantizer.bit_code_and (by decide), Quantizer.bit_code_and (by decide)]
  have hsign : (Quantizer.ofDiff step diff).code &&& 0x4 = 0 := by
    show (if diff < 0 then (0x8 : Code) else 0) &&& 0x4 = 0
    split_ifs <;> decide
  by_cases h : |diff| < step
  · rw [Quantizer.bit_neg h]
    exact iff_of_true hsign h
  · rw [Quantizer.bit_pos (Int.not_lt.mp h)]
    refine iff_of_false (fun hzero => ?_) h
    rw [BitVec.and_or_distrib_right, hsign] at hzero
    exact absurd hzero (by decide)

/-! ## The state after a sample -/

section EncodeSample

variable (sample : I16) (state : AdpcmState)

/-- The predictor moves toward the sample by the quantized difference. -/
theorem encodeSample_predictor :
    (encodeSample sample state).2.predictor.toInt =
      clampPredictor (state.predictor.toInt +
        if sample.toInt - state.predictor.toInt < 0 then
          -(quantize state.step (sample.toInt - state.predictor.toInt)).diffq
        else (quantize state.step (sample.toInt - state.predictor.toInt)).diffq) := by
  have hmove : (encodeSample sample state).2.predictor.toInt =
      clampPredictor (state.predictor.toInt +
        if (quantize state.step (sample.toInt - state.predictor.toInt)).code &&& 0x8 ≠ 0 then
          -(quantize state.step (sample.toInt - state.predictor.toInt)).diffq
        else (quantize state.step (sample.toInt - state.predictor.toInt)).diffq) :=
    ofInt_clampPredictor_toInt _
  rw [hmove]
  simp only [quantize_sign]

theorem encodeSample_stepIndex :
    ((encodeSample sample state).2.stepIndex.toNat : Int) =
      clampStepIndex (state.stepIndex.toNat +
        kIndexTable.get (encodeSample sample state).1.toFin) :=
  ofInt_clampStepIndex_toNat _

/-- The new distance is the quantization error at most; clamping only lowers it. -/
theorem distance_encodeSample_le :
    (encodeSample sample state).2.distance sample ≤
      abs (state.distance sample -
        (quantize state.step (sample.toInt - state.predictor.toInt)).diffq) := by
  rw [AdpcmState.distance, encodeSample_predictor, AdpcmState.distance]
  generalize (quantize state.step (sample.toInt - state.predictor.toInt)).diffq = diffq
  refine (clampPredictor_dist_le _ _).trans (le_of_eq ?_)
  by_cases h : sample.toInt - state.predictor.toInt < 0
  · rw [if_pos h, abs_of_neg h, ← abs_neg]
    congr 1
    omega
  · rw [if_neg h, abs_of_nonneg (Int.not_lt.mp h)]
    congr 1
    omega

variable {sample state}

/-- Within two steps of the sample, the predictor lands within an eighth of the step and two. -/
theorem encodeSample_near (h : state.distance sample < 2 * state.step) :
    (encodeSample sample state).2.distance sample ≤ state.step >>> (3 : Nat) + 2 :=
  (distance_encodeSample_le sample state).trans (quantize_near h)

/-- From two steps on the magnitude of the code is 7. -/
theorem encodeSample_far_code (h : 2 * state.step ≤ state.distance sample) :
    (encodeSample sample state).1 &&& 0x7 = 0x7 := by
  have hcode := (quantize_far (by linarith [state.step_bounds.1]) h).1
  show (quantize state.step _).code &&& 0x7 = 0x7
  rw [hcode]
  generalize (Quantizer.ofDiff state.step _).code = sign
  revert sign
  decide

/-- The index of a code of magnitude 7 goes up by 8. -/
theorem kIndexTable_of_seven {code : Code} (h : code &&& 0x7 = 0x7) :
    kIndexTable.get code.toFin = 8 := by
  revert code
  decide

theorem encodeSample_far_stepIndex (h : 2 * state.step ≤ state.distance sample) :
    (encodeSample sample state).2.stepIndex.toNat = min (state.stepIndex.toNat + 8) 88 := by
  have hindex := encodeSample_stepIndex sample state
  rw [kIndexTable_of_seven (encodeSample_far_code h)] at hindex
  unfold clampStepIndex at hindex
  split_ifs at hindex <;> omega

/-- From two steps on the predictor moves by the largest quantized difference. That stops short of
the sample, so nothing is clamped. -/
theorem encodeSample_far_predictor (h : 2 * state.step ≤ state.distance sample) :
    (state.predictor.toInt < sample.toInt → (encodeSample sample state).2.predictor.toInt =
      state.predictor.toInt + state.stride) ∧
    (sample.toInt < state.predictor.toInt → (encodeSample sample state).2.predictor.toInt =
      state.predictor.toInt - state.stride) := by
  have hstride := state.stride_bounds
  have hdiffq := (quantize_far (by linarith [state.step_bounds.1]) h).2
  have hlow := state.predictor.le_toInt
  have hhigh := state.predictor.toInt_lt
  have hlow' := sample.le_toInt
  have hhigh' := sample.toInt_lt
  rw [encodeSample_predictor, hdiffq, ← state.stride_eq]
  constructor
  · intro hlt
    have hdist := AdpcmState.distance_of_lt hlt
    rw [if_neg (by omega), clampPredictor_of_mem (by omega) (by omega)]
  · intro hlt
    have hdist := AdpcmState.distance_of_gt hlt
    rw [if_pos (by omega), clampPredictor_of_mem (by omega) (by omega)]
    omega

/-- From two steps on the distance shrinks by the largest quantized difference. -/
theorem encodeSample_far_distance (h : 2 * state.step ≤ state.distance sample) :
    (encodeSample sample state).2.distance sample = state.distance sample - state.stride := by
  have hstride := state.stride_bounds
  obtain ⟨hup, hdown⟩ := encodeSample_far_predictor h
  unfold AdpcmState.distance at h ⊢
  rcases lt_trichotomy state.predictor.toInt sample.toInt with hlt | heq | hlt
  · rw [abs_of_pos (by omega)] at h ⊢
    rw [hup hlt, abs_of_pos (by omega)]
    omega
  · rw [heq, sub_self, abs_zero] at h
    omega
  · rw [abs_of_neg (by omega)] at h ⊢
    rw [hdown hlt, abs_of_neg (by omega)]
    omega

end EncodeSample

/-- **The error of one sample.** Within two steps of the sample the predictor lands within an eighth
of the step and two. Farther away the code has magnitude 7, the predictor moves toward the sample
without reaching it, by exactly one and seven eighths of the step, each part truncated on its own, and
the step index rises by 8. -/
theorem encodeSample_error (state : AdpcmState) (sample : I16) :
    (state.distance sample < 2 * state.step →
      (encodeSample sample state).2.distance sample ≤ state.step >>> (3 : Nat) + 2) ∧
    (2 * state.step ≤ state.distance sample →
      (encodeSample sample state).1 &&& 0x7 = 0x7 ∧
      (state.predictor.toInt < sample.toInt →
        state.predictor.toInt < (encodeSample sample state).2.predictor.toInt ∧
        (encodeSample sample state).2.predictor.toInt < sample.toInt) ∧
      (sample.toInt < state.predictor.toInt →
        sample.toInt < (encodeSample sample state).2.predictor.toInt ∧
        (encodeSample sample state).2.predictor.toInt < state.predictor.toInt) ∧
      (encodeSample sample state).2.distance sample = state.distance sample -
        (state.step + state.step >>> (1 : Nat) + state.step >>> (2 : Nat) +
          state.step >>> (3 : Nat)) ∧
      (encodeSample sample state).2.stepIndex.toNat = min (state.stepIndex.toNat + 8) 88) := by
  refine ⟨encodeSample_near, fun h => ?_⟩
  have hstride := state.stride_bounds
  obtain ⟨hup, hdown⟩ := encodeSample_far_predictor h
  have hdist := encodeSample_far_distance h
  have hpos := (encodeSample sample state).2.distance_nonneg sample
  refine ⟨encodeSample_far_code h, fun hlt => ?_, fun hlt => ?_, hdist,
    encodeSample_far_stepIndex h⟩
  · have hdist := AdpcmState.distance_of_lt hlt
    rw [hup hlt]
    omega
  · have hdist := AdpcmState.distance_of_gt hlt
    rw [hdown hlt]
    omega

/-- From the initial state, a sample of 9 is near, and 1000 and -1000 are far on either side. -/
theorem encodeSample_error_initial :
    (encodeSample 9 {}).2.distance 9 ≤ 2 ∧
      (0 < (encodeSample 1000 {}).2.predictor.toInt ∧
        (encodeSample 1000 {}).2.predictor.toInt < 1000) ∧
      -1000 < (encodeSample (-1000) {}).2.predictor.toInt ∧
        (encodeSample (-1000) {}).2.predictor.toInt < 0 :=
  ⟨(encodeSample_error {} 9).1 (by decide),
    ((encodeSample_error {} 1000).2 (by decide)).2.1 (by decide),
    ((encodeSample_error {} (-1000)).2 (by decide)).2.2.1 (by decide)⟩

end RtpStreamer
