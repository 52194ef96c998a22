import RtpStreamer.Codec.Proofs.QuantizerProofs
import RtpStreamer.Run.Descent
import Mathlib.Order.Fin.Basic

/-!
# ADPCM converges on a constant signal

While the predictor is two steps or more away, the step index rises by 8 a sample; once the step has
overtaken the distance, the distance stays below the next smaller step, so the index falls by one a
sample until it is 0, where the distance closes. `convergenceRank` counts the samples that are left, and
`lowers_convergenceRank` is the case distinction over the phases.
-/

namespace RtpStreamer

/-! ## A frame of samples -/

theorem predictorTrace_getElem? (pcm : List I16) :
    ∀ (state : AdpcmState) (k : Nat), k < pcm.length →
      (predictorTrace state pcm)[k]? = some ((pcm.take (k + 1)).foldl afterSample state).predictor := by
  induction pcm with
  | nil => exact fun _ k h => absurd h (Nat.not_lt_zero k)
  | cons sample pcm ih =>
    intro state k h
    cases k with
    | zero => rfl
    | succ k => exact ih (afterSample state sample) k (Nat.lt_of_succ_lt_succ h)

/-! ## The step index -/

theorem kIndexTable_of_four {code : Code} :
    (code &&& 0x4 = 0 → kIndexTable.get code.toFin = -1) ∧
      (code &&& 0x4 ≠ 0 → 2 ≤ kIndexTable.get code.toFin) := by
  revert code
  decide

theorem kStepTable_monotone {i j : Fin 89} (h : i ≤ j) : kStepTable.get i ≤ kStepTable.get j :=
  Fin.monotone_iff_le_succ.mpr (by decide) h

/-- An eighth of an entry is well below the entry before it. -/
theorem kStepTable_shrink (i : Fin 88) :
    kStepTable.get i.succ >>> (3 : Nat) + 2 < kStepTable.get i.castSucc := by
  revert i
  decide

section Phases

variable {c : I16} {state : AdpcmState}

/-- Below one step the index falls by one. -/
theorem afterSample_stepIndex_of_lt (h : state.distance c < state.step) :
    (afterSample state c).stepIndex.toNat = state.stepIndex.toNat - 1 := by
  have hindex := encodeSample_stepIndex c state
  have hfall : kIndexTable.get (encodeSample c state).1.toFin = -1 :=
    kIndexTable_of_four.1 ((quantize_four _ _).mpr h)
  have hle := state.stepIndex_le
  unfold clampStepIndex at hindex
  unfold afterSample
  split_ifs at hindex <;> omega

/-- From one step on the index does not fall. -/
theorem afterSample_stepIndex_of_le (h : state.step ≤ state.distance c) :
    state.stepIndex.toNat ≤ (afterSample state c).stepIndex.toNat := by
  have hindex := encodeSample_stepIndex c state
  have hrise : 2 ≤ kIndexTable.get (encodeSample c state).1.toFin :=
    kIndexTable_of_four.2 fun hzero => Int.not_lt.mpr h ((quantize_four _ _).mp hzero)
  have hle := state.stepIndex_le
  unfold clampStepIndex at hindex
  unfold afterSample
  split_ifs at hindex <;> omega

theorem AdpcmState.step_le_of_stepIndex_le {state' : AdpcmState}
    (h : state.stepIndex.toNat ≤ state'.stepIndex.toNat) : state.step ≤ state'.step :=
  kStepTable_monotone h

theorem AdpcmState.step_of_stepIndex_zero (h : state.stepIndex.toNat = 0) : state.step = 7 := by
  have hindex : (⟨state.stepIndex.toNat, Nat.lt_succ_of_le state.stepIndex_le⟩ : Fin 89) = 0 :=
    Fin.ext h
  rw [AdpcmState.step, hindex]
  rfl

/-- One index lower the step is still above an eighth of what it was. -/
theorem AdpcmState.shrink_of_stepIndex_eq {state' : AdpcmState} (hpos : state.stepIndex.toNat ≠ 0)
    (h : state'.stepIndex.toNat = state.stepIndex.toNat - 1) :
    state.step >>> (3 : Nat) + 2 < state'.step := by
  have hle := state.stepIndex_le
  have hsucc : (⟨state.stepIndex.toNat, Nat.lt_succ_of_le hle⟩ : Fin 89) =
      Fin.succ (⟨state.stepIndex.toNat - 1, by omega⟩ : Fin 88) :=
    Fin.ext (Nat.succ_pred_eq_of_ne_zero hpos).symm
  have hpred : (⟨state'.stepIndex.toNat, Nat.lt_succ_of_le state'.stepIndex_le⟩ : Fin 89) =
      Fin.castSucc (⟨state.stepIndex.toNat - 1, by omega⟩ : Fin 88) := Fin.ext h
  rw [AdpcmState.step, AdpcmState.step, hsucc, hpred]
  exact kStepTable_shrink _

/-! ## The phases -/

/-- A distance below one step stays below the step while the index falls. -/
theorem afterSample_settled (h : state.distance c < state.step) :
    (afterSample state c).distance c < (afterSample state c).step := by
  have hstep := state.step_bounds
  have hnear : (afterSample state c).distance c ≤ state.step >>> (3 : Nat) + 2 :=
    encodeSample_near (by omega)
  have hindex := afterSample_stepIndex_of_lt h
  by_cases hzero : state.stepIndex.toNat = 0
  · have hseven := AdpcmState.step_of_stepIndex_zero hzero
    have hzero' : (afterSample state c).stepIndex.toNat = 0 := by omega
    have hseven' := AdpcmState.step_of_stepIndex_zero hzero'
    rw [hseven] at hnear
    exact lt_of_le_of_lt hnear (by rw [hseven']; decide)
  · exact lt_of_le_of_lt hnear (AdpcmState.shrink_of_stepIndex_eq hzero hindex)

/-- Between one and two steps a single sample brings the distance below the step. -/
theorem afterSample_mid (hle : state.step ≤ state.distance c)
    (hlt : state.distance c < 2 * state.step) :
    (afterSample state c).distance c < (afterSample state c).step := by
  have hstep := state.step_bounds
  obtain ⟨-, -, heighth⟩ := shiftRight_fractions state.step
  have hnear : (afterSample state c).distance c ≤ state.step >>> (3 : Nat) + 2 :=
    encodeSample_near hlt
  have hmono := AdpcmState.step_le_of_stepIndex_le (afterSample_stepIndex_of_le hle)
  omega

/-- The largest step takes every distance below itself. -/
theorem afterSample_far_max (hfar : 2 * state.step ≤ state.distance c)
    (hindex : state.stepIndex.toNat = 88) :
    (afterSample state c).distance c < (afterSample state c).step := by
  have hmax : (⟨state.stepIndex.toNat, Nat.lt_succ_of_le state.stepIndex_le⟩ : Fin 89) = 88 :=
    Fin.ext hindex
  have hstep : state.step = 32767 := by
    rw [AdpcmState.step, hmax]
    rfl
  have hdist : (afterSample state c).distance c = state.distance c - state.stride :=
    encodeSample_far_distance hfar
  have hstride : state.stride = 61436 := by
    rw [AdpcmState.stride, hstep]
    rfl
  have hle := state.distance_le c
  have hmono : state.step ≤ (afterSample state c).step :=
    AdpcmState.step_le_of_stepIndex_le (afterSample_stepIndex_of_le (by omega))
  omega

/-- With the smallest step the quantizer closes a difference below it in three samples. -/
theorem quantize_seven {diff : Int} (h : |diff| < 7) :
    abs (|diff| - (quantize 7 diff).diffq) ≤ 2 ∧
      (diff ≠ 0 → abs (|diff| - (quantize 7 diff).diffq) < |diff|) ∧
      (diff = 0 → (quantize 7 diff).diffq = 0) := by
  obtain ⟨hlow, hhigh⟩ := abs_lt.mp h
  interval_cases diff <;> decide

/-- With the smallest step a distance below it falls, to 2 at most. -/
theorem afterSample_last (hindex : state.stepIndex.toNat = 0) (h : state.distance c < state.step) :
    (afterSample state c).distance c ≤ 2 ∧
      (state.distance c ≠ 0 → (afterSample state c).distance c < state.distance c) ∧
      (state.distance c = 0 → (afterSample state c).distance c = 0) := by
  have hseven := AdpcmState.step_of_stepIndex_zero hindex
  have hle := distance_encodeSample_le c state
  rw [hseven] at h hle
  obtain ⟨htwo, hfall, hstay⟩ := quantize_seven h
  have hpos := (afterSample state c).distance_nonneg c
  refine ⟨hle.trans htwo, fun hne => lt_of_le_of_lt hle (hfall fun hzero => hne ?_), fun hzero => ?_⟩
  · rw [AdpcmState.distance, hzero, abs_zero]
  · rw [hstay (abs_eq_zero.mp hzero), hzero] at hle
    exact le_antisymm hle hpos

end Phases

/-- The samples after which the predictor has certainly settled on `c`. -/
def convergenceRank (c : I16) (state : AdpcmState) : Nat :=
  if state.distance c < state.step then
    if state.stepIndex.toNat = 0 then min (state.distance c).toNat 3 else state.stepIndex.toNat + 3
  else if state.distance c < 2 * state.step then 92
  else 93 + (95 - state.stepIndex.toNat) / 8

/-- Once the distance is below the step, only the index and the last few units are left. -/
theorem convergenceRank_settled {c : I16} {state : AdpcmState} (h : state.distance c < state.step) :
    convergenceRank c state ≤ state.stepIndex.toNat + 3 := by
  rw [convergenceRank, if_pos h]
  split_ifs <;> omega

theorem convergenceRank_le (c : I16) (state : AdpcmState) : convergenceRank c state ≤ 104 := by
  have hle := state.stepIndex_le
  unfold convergenceRank
  split_ifs <;> omega

/-- The predictor has settled when it is on `c` with the smallest step. -/
theorem convergenceRank_eq_zero {c : I16} {state : AdpcmState} :
    convergenceRank c state = 0 ↔ state.distance c = 0 ∧ state.stepIndex.toNat = 0 := by
  have hpos := state.distance_nonneg c
  have hstep := state.step_bounds
  unfold convergenceRank
  split_ifs with hsettled hzero hmid
  · omega
  · exact iff_of_false not_false fun h => hzero h.2
  · exact iff_of_false not_false fun h => hsettled (by omega)
  · exact iff_of_false (by omega) fun h => hsettled (by omega)

theorem lowers_convergenceRank (c : I16) :
    Descent.Lowers (afterSample · c) (convergenceRank c) where
  lower state hne := by
    have hle := state.stepIndex_le
    have hle' := (afterSample state c).stepIndex_le
    by_cases hsettled : state.distance c < state.step
    · have hsettled' := afterSample_settled hsettled
      have hindex := afterSample_stepIndex_of_lt hsettled
      by_cases hzero : state.stepIndex.toNat = 0
      · obtain ⟨htwo, hfall, -⟩ := afterSample_last hzero hsettled
        simp only [convergenceRank, if_pos hsettled, if_pos hsettled', hindex, hzero, if_true] at hne ⊢
        have hpos := (afterSample state c).distance_nonneg c
        omega
      · have hrank : convergenceRank c state = state.stepIndex.toNat + 3 := by
          rw [convergenceRank, if_pos hsettled, if_neg hzero]
        have hrank' := convergenceRank_settled hsettled'
        omega
    · by_cases hmid : state.distance c < 2 * state.step
      · have hrank : convergenceRank c state = 92 := by
          rw [convergenceRank, if_neg hsettled, if_pos hmid]
        have hrank' := convergenceRank_settled (afterSample_mid (Int.not_lt.mp hsettled) hmid)
        omega
      · have hrank : convergenceRank c state = 93 + (95 - state.stepIndex.toNat) / 8 := by
          rw [convergenceRank, if_neg hsettled, if_neg hmid]
        by_cases hmax : state.stepIndex.toNat = 88
        · have hrank' := convergenceRank_settled (afterSample_far_max (Int.not_lt.mp hmid) hmax)
          omega
        · have hindex : (afterSample state c).stepIndex.toNat = min (state.stepIndex.toNat + 8) 88 :=
            encodeSample_far_stepIndex (Int.not_lt.mp hmid)
          rw [hrank]
          unfold convergenceRank
          split_ifs <;> omega
  stay state hzero := by
    obtain ⟨hdist, hindex⟩ := convergenceRank_eq_zero.mp hzero
    have hstep := state.step_bounds
    have hsettled : state.distance c < state.step := by omega
    have hindex' := afterSample_stepIndex_of_lt hsettled
    exact convergenceRank_eq_zero.mpr ⟨(afterSample_last hindex hsettled).2.2 hdist, by omega⟩

/-! ## Convergence -/

/-- The state in which a constant signal is coded without error. -/
def settledState (c : I16) : AdpcmState where
  predictor := c
  stepIndex := 0
  stepIndex_le := Nat.zero_le 88

theorem eq_settledState {c : I16} {state : AdpcmState} (h : convergenceRank c state = 0) :
    state = settledState c := by
  obtain ⟨hdist, hindex⟩ := convergenceRank_eq_zero.mp h
  have hpredictor := abs_eq_zero.mp hdist
  ext1
  · exact BitVec.eq_of_toInt_eq (Int.sub_eq_zero.mp hpredictor).symm
  · exact BitVec.eq_of_toNat_eq hindex

/-- Coding a constant signal iterates one step. -/
theorem foldl_afterSample_eq_iterate (c : I16) (n : Nat) :
    ∀ state, (List.replicate n c).foldl afterSample state = (afterSample · c)^[n] state := by
  induction n with
  | zero => exact fun _ => rfl
  | succ n ih => exact fun state => ih (afterSample state c)

theorem foldl_afterSample_replicate (c : I16) (state : AdpcmState) {n : Nat} (hn : 104 ≤ n) :
    (List.replicate n c).foldl afterSample state = settledState c := by
  rw [foldl_afterSample_eq_iterate]
  exact eq_settledState ((lowers_convergenceRank c).rank_iterate_eq_zero
    ((convergenceRank_le c state).trans hn))

/-- **Convergence.** A constant signal is decoded exactly from its 128th sample on, whatever the state
from which it was encoded, and the decoder then rests on the constant with the smallest step. -/
theorem adpcm_converges (state : AdpcmState) (c : I16) (numSamples n : Nat) (hn : 128 ≤ n)
    (hle : n ≤ numSamples) :
    (adpcmDecodeFrame (adpcmEncodeFrame (List.replicate numSamples c) state).1 numSamples
        state).1[n - 1]? = some c ∧
      (adpcmDecodeFrame (adpcmEncodeFrame (List.replicate numSamples c) state).1 n state).2 =
        { predictor := c, stepIndex := 0 } := by
  have hlen : (List.replicate numSamples c).length = numSamples := List.length_replicate
  have htake : (List.replicate numSamples c).take n = List.replicate n c := by
    rw [List.take_replicate, Nat.min_eq_left hle]
  have hstate : ((List.replicate numSamples c).take n).foldl afterSample state = settledState c := by
    rw [htake]
    exact foldl_afterSample_replicate c state (by omega)
  constructor
  · have hdecode := adpcmDecodeFrame_encode (List.replicate numSamples c) state
    rw [hlen] at hdecode
    rw [hdecode, predictorTrace_getElem? _ _ _ (by omega), Nat.sub_add_cancel (by omega), hstate]
    rfl
  · rw [adpcmDecodeFrame_take _ _ _ (by omega), hstate]
    rfl

/-- A frame of 160 samples of 1000, coded from the initial state: its last sample is exact. -/
theorem adpcm_converges_frame :
    (adpcmDecodeFrame (adpcmEncodeFrame (List.replicate 160 1000) {}).1 160 {}).1[159]? =
      some 1000 :=
  (adpcm_converges {} 1000 160 160 (by decide) (by decide)).1

end RtpStreamer
