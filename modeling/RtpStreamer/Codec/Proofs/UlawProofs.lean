import RtpStreamer.Codec.Ulaw
import RtpStreamer.Quantize.Segmented
import Mathlib.Data.Nat.Bitwise

/-!
# mu-law as a segmented quantizer

The biased magnitude of a sample lies in one of eight segments of sixteen steps. A code is a sign, a segment
and a step, and stands for the middle of that step, less the bias. So the error of a sample grows with it,
the order of samples is kept, and a sample that was decoded is coded without any error.
-/

namespace RtpStreamer

open Segmented

/-- The sample as far as the code can follow it. -/
def ulawClipped (sample : I16) : Int := max (-kUlawClip) (min sample.toInt kUlawClip)

/-- The magnitude that is coded. -/
def ulawMagnitude (sample : I16) : Nat := (ulawClipped sample).natAbs + kUlawBias

/-- What coding and decoding make of a sample. -/
def ulawReconstruct (sample : I16) : I16 := ulawToLinear (linearToUlaw sample)

/-- A value with the sign of a sample. -/
def withSign (sample : I16) (magnitude : Int) : Int :=
  if sample.toInt < 0 then -magnitude else magnitude

theorem ulawClipped_eq (sample : I16) :
    ulawClipped sample = withSign sample (ulawMagnitude sample - kUlawBias) := by
  unfold ulawMagnitude ulawClipped withSign kUlawClip kUlawBias
  split_ifs <;> omega

theorem ulawMagnitude_bounds (sample : I16) :
    kUlawBias ≤ ulawMagnitude sample ∧ ulawMagnitude sample ≤ kUlawClip + kUlawBias := by
  unfold ulawMagnitude ulawClipped kUlawClip
  omega

/-! ## The segments -/

theorem inSegment_iff {exponent magnitude : Nat} :
    InSegment 4 2 exponent magnitude ↔ 2 ^ (exponent + 7) ≤ magnitude ∧ magnitude < 2 ^ (exponent + 8) := by
  have hlow : 2 ^ 4 * (2 * half 2 exponent) = 2 ^ (exponent + 7) := by
    unfold half
    ring
  have hhigh : 2 ^ (4 + 1) * (2 * half 2 exponent) = 2 ^ (exponent + 8) := by
    unfold half
    ring
  rw [← hlow, ← hhigh]
  exact ⟨fun h => ⟨h.le, h.lt⟩, fun h => ⟨h.1, h.2⟩⟩

/-- A number below the mask's double has the mask's bit when it is not below the mask. -/
theorem and_mask_eq_zero_iff {magnitude k : Nat} (hlt : magnitude < 2 ^ (k + 1)) :
    magnitude &&& 2 ^ k = 0 ↔ magnitude < 2 ^ k := by
  rw [Nat.and_two_pow, Nat.testBit_eq_decide_div_mod_eq]
  have hpos := Nat.two_pow_pos k
  rw [Nat.pow_succ] at hlt
  rcases Nat.lt_or_ge magnitude (2 ^ k) with hbelow | habove
  · rw [Nat.div_eq_of_lt hbelow]
    simp [hbelow]
  · have hone : magnitude / 2 ^ k = 1 := Nat.div_eq_of_lt_le (by omega) (by omega)
    rw [hone]
    simp [Nat.not_lt.mpr habove]

/-- The search walks down from segment `k` and stops at the magnitude's own segment. -/
theorem segmentExponent_spec {magnitude : Nat} (hlow : 2 ^ 7 ≤ magnitude) :
    ∀ k, magnitude < 2 ^ (k + 8) →
      segmentExponent magnitude (2 ^ (k + 7)) k ≤ k ∧
        InSegment 4 2 (segmentExponent magnitude (2 ^ (k + 7)) k) magnitude := by
  intro k
  induction k with
  | zero => exact fun hlt => ⟨le_refl _, inSegment_iff.mpr ⟨hlow, hlt⟩⟩
  | succ k ih =>
    intro hlt
    have hmask : 2 ^ (k + 1 + 7) >>> 1 = 2 ^ (k + 7) := by
      rw [Nat.shiftRight_eq_div_pow]
      exact Nat.pow_div (by omega) (by decide)
    have hand := and_mask_eq_zero_iff hlt
    unfold segmentExponent
    by_cases hbelow : magnitude < 2 ^ (k + 1 + 7)
    · rw [if_pos (hand.mpr hbelow), hmask]
      obtain ⟨hle, hsegment⟩ := ih hbelow
      exact ⟨by omega, hsegment⟩
    · rw [if_neg (fun h => hbelow (hand.mp h))]
      exact ⟨le_refl _, inSegment_iff.mpr ⟨by omega, hlt⟩⟩

/-! ## The fields of a code -/

/-- The code of a sign, a segment and a step. -/
def ulawCode (negative : Bool) (exponent : Fin 8) (mantissa : Fin 16) : U8 :=
  let sign : U8 := if negative then 0x80 else 0
  ~~~(sign ||| (BitVec.ofNat 8 exponent <<< 4) ||| BitVec.ofNat 8 mantissa)

/-- A code stands for the middle of its step. -/
theorem ulawToLinear_code (negative : Bool) (exponent : Fin 8) (mantissa : Fin 16) :
    (ulawToLinear (ulawCode negative exponent mantissa)).toInt =
      (if negative then -1 else 1) * ((midpoint 2 exponent (16 + mantissa) : Int) - kUlawBias) := by
  revert negative exponent mantissa
  decide +kernel

/-! ## What becomes of a sample -/

/-- The segment of a sample. -/
def ulawSegment (sample : I16) : Nat := segmentExponent (ulawMagnitude sample) 0x4000 7

/-- The middle of the step that a sample falls into. -/
def ulawLevel (sample : I16) : Nat :=
  midpoint 2 (ulawSegment sample) (significand 2 (ulawSegment sample) (ulawMagnitude sample))

theorem ulawSegment_spec (sample : I16) :
    ulawSegment sample ≤ 7 ∧ InSegment 4 2 (ulawSegment sample) (ulawMagnitude sample) := by
  obtain ⟨hlow, hhigh⟩ := ulawMagnitude_bounds sample
  have hclip : kUlawClip + kUlawBias < 2 ^ (7 + 8) := by decide
  exact segmentExponent_spec (le_trans (by decide) hlow) 7 (by omega)

/-- The code of a sample names its segment and its step. -/
theorem linearToUlaw_eq (sample : I16) :
    ∃ (exponent : Fin 8) (mantissa : Fin 16), exponent.val = ulawSegment sample ∧
      16 + mantissa.val = significand 2 (ulawSegment sample) (ulawMagnitude sample) ∧
      linearToUlaw sample = ulawCode (sample.toInt < 0) exponent mantissa := by
  obtain ⟨hle, hsegment⟩ := ulawSegment_spec sample
  obtain ⟨hlow, hhigh⟩ := significand_bounds hsegment
  have hmantissa : (ulawMagnitude sample >>> (ulawSegment sample + 3)) &&& 0x0F =
      significand 2 (ulawSegment sample) (ulawMagnitude sample) - 16 := by
    have hstep : 2 * half 2 (ulawSegment sample) = 2 ^ (ulawSegment sample + 3) := by
      unfold half
      ring
    rw [show 0x0F = 2 ^ 4 - 1 from rfl, Nat.and_two_pow_sub_one_eq_mod, Nat.shiftRight_eq_div_pow,
      ← hstep]
    change significand 2 (ulawSegment sample) (ulawMagnitude sample) % 2 ^ 4 = _
    omega
  have hmagnitude : (if sample.toInt.natAbs > kUlawClip then kUlawClip else sample.toInt.natAbs) +
      kUlawBias = ulawMagnitude sample := by
    unfold ulawMagnitude ulawClipped kUlawClip
    split_ifs <;> omega
  refine ⟨⟨ulawSegment sample, by omega⟩,
    ⟨significand 2 (ulawSegment sample) (ulawMagnitude sample) - 16, by omega⟩, rfl,
    Nat.add_sub_cancel' hlow, ?_⟩
  unfold linearToUlaw ulawCode
  dsimp only
  rw [hmagnitude]
  change ~~~(_ ||| (BitVec.ofNat 8 (ulawSegment sample) <<< 4) |||
    BitVec.ofNat 8 ((ulawMagnitude sample >>> (ulawSegment sample + 3)) &&& 0x0F)) = _
  rw [hmantissa]
  simp

theorem ulawReconstruct_toInt (sample : I16) :
    (ulawReconstruct sample).toInt = withSign sample (ulawLevel sample - kUlawBias) := by
  obtain ⟨exponent, mantissa, hexponent, hmantissa, hcode⟩ := linearToUlaw_eq sample
  unfold ulawReconstruct ulawLevel withSign
  rw [hcode, ulawToLinear_code, hexponent, hmantissa]
  by_cases hneg : sample.toInt < 0 <;> simp [hneg]

/-- The error is at most a thirty-second of the biased magnitude. -/
theorem ulawReconstruct_error (sample : I16) :
    32 * |(ulawReconstruct sample).toInt - ulawClipped sample| ≤ |ulawClipped sample| + kUlawBias := by
  have herror := error_le (ulawSegment_spec sample).2
  have habs : |ulawClipped sample| + kUlawBias = ulawMagnitude sample := by
    unfold ulawMagnitude
    push_cast
    rfl
  have hdist : |(ulawReconstruct sample).toInt - ulawClipped sample| =
      |(ulawLevel sample : Int) - ulawMagnitude sample| := by
    rw [ulawReconstruct_toInt, ulawClipped_eq]
    unfold withSign
    split_ifs
    · rw [← abs_neg]
      congr 1
      ring
    · congr 1
      ring
  rw [habs, hdist]
  exact herror

/-! ## Order -/

theorem ulawLevel_mono {sample sample' : I16} (h : ulawMagnitude sample ≤ ulawMagnitude sample') :
    ulawLevel sample ≤ ulawLevel sample' :=
  midpoint_mono (ulawSegment_spec sample).2 (ulawSegment_spec sample').2 h

/-- A level is not below that of 0, and not above that of the loudest sample. -/
theorem ulawLevel_bounds (sample : I16) :
    kUlawBias ≤ ulawLevel sample ∧ ulawLevel sample ≤ kUlawClip + kUlawBias := by
  obtain ⟨hlow, hhigh⟩ := ulawMagnitude_bounds sample
  have hquiet : ulawMagnitude 0 = kUlawBias ∧ ulawLevel 0 = kUlawBias := by decide
  have hloud : ulawMagnitude 32767 = kUlawClip + kUlawBias ∧ ulawLevel 32767 ≤ kUlawClip + kUlawBias := by
    decide
  rw [← hquiet.1] at hlow
  rw [← hloud.1] at hhigh
  exact ⟨hquiet.2.symm.trans_le (ulawLevel_mono hlow), (ulawLevel_mono hhigh).trans hloud.2⟩

/-- Louder is not decoded as quieter. -/
theorem ulawReconstruct_mono {sample sample' : I16} (h : sample.toInt ≤ sample'.toInt) :
    (ulawReconstruct sample).toInt ≤ (ulawReconstruct sample').toInt := by
  obtain ⟨hlow, _⟩ := ulawLevel_bounds sample
  obtain ⟨hlow', _⟩ := ulawLevel_bounds sample'
  rw [ulawReconstruct_toInt, ulawReconstruct_toInt]
  unfold withSign
  by_cases hneg : sample.toInt < 0
  · by_cases hneg' : sample'.toInt < 0
    · have hlevel : ulawLevel sample' ≤ ulawLevel sample := by
        apply ulawLevel_mono
        unfold ulawMagnitude ulawClipped
        omega
      rw [if_pos hneg, if_pos hneg']
      omega
    · rw [if_pos hneg, if_neg hneg']
      omega
  · have hlevel : ulawLevel sample ≤ ulawLevel sample' := by
      apply ulawLevel_mono
      unfold ulawMagnitude ulawClipped
      omega
    rw [if_neg hneg, if_neg (by omega)]
    omega

/-- A sample and its negative come back as negatives of each other. -/
theorem ulawReconstruct_neg {sample sample' : I16} (h : sample'.toInt = -sample.toInt) :
    (ulawReconstruct sample').toInt = -(ulawReconstruct sample).toInt := by
  have hmagnitude : ulawMagnitude sample' = ulawMagnitude sample := by
    unfold ulawMagnitude ulawClipped
    omega
  have hlevel : ulawLevel sample' = ulawLevel sample :=
    le_antisymm (ulawLevel_mono hmagnitude.le) (ulawLevel_mono hmagnitude.ge)
  rcases lt_trichotomy sample.toInt 0 with hneg | hzero | hpos
  · rw [ulawReconstruct_toInt, ulawReconstruct_toInt, hlevel, withSign, withSign, if_pos hneg,
      if_neg (by omega), Int.neg_neg]
  · obtain rfl : sample = 0 := BitVec.eq_of_toInt_eq hzero
    obtain rfl : sample' = 0 := BitVec.eq_of_toInt_eq h
    rfl
  · rw [ulawReconstruct_toInt, ulawReconstruct_toInt, hlevel, withSign, withSign, if_pos (by omega),
      if_neg (by omega)]

/-! ## Coding a decoded sample again -/

theorem ulawMagnitude_reconstruct (sample : I16) :
    ulawMagnitude (ulawReconstruct sample) = ulawLevel sample := by
  obtain ⟨hlow, hhigh⟩ := ulawLevel_bounds sample
  have hvalue := ulawReconstruct_toInt sample
  unfold withSign at hvalue
  unfold ulawMagnitude ulawClipped
  split_ifs at hvalue <;> omega

/-- A level lies in its own step, and is the middle of it. -/
theorem ulawLevel_reconstruct (sample : I16) : ulawLevel (ulawReconstruct sample) = ulawLevel sample := by
  obtain ⟨hlow, hhigh⟩ := significand_bounds (ulawSegment_spec sample).2
  have hsegment := (ulawSegment_spec (ulawReconstruct sample)).2
  rw [ulawMagnitude_reconstruct] at hsegment
  have hsame : ulawSegment (ulawReconstruct sample) = ulawSegment sample :=
    hsegment.unique (inSegment_midpoint 2 (ulawSegment sample) hlow hhigh)
  unfold ulawLevel
  rw [hsame, ulawMagnitude_reconstruct]
  unfold ulawLevel
  rw [significand_midpoint]

/-- What was decoded once is coded without an error. -/
theorem ulawReconstruct_idem (sample : I16) :
    ulawReconstruct (ulawReconstruct sample) = ulawReconstruct sample := by
  apply BitVec.eq_of_toInt_eq
  obtain ⟨hlow, _⟩ := ulawLevel_bounds sample
  have hvalue := ulawReconstruct_toInt sample
  rw [ulawReconstruct_toInt (ulawReconstruct sample), ulawLevel_reconstruct]
  unfold withSign at hvalue ⊢
  split_ifs at hvalue ⊢ <;> omega

/-- **The laws of the quantizer.** Coding and decoding keeps the order of samples and their sign, and
changes a decoded sample no more. Every code but the negative zero is the code of what it stands for. -/
theorem ulaw_quantizer_laws :
    (∀ sample sample' : I16, sample.toInt ≤ sample'.toInt →
      (ulawToLinear (linearToUlaw sample)).toInt ≤ (ulawToLinear (linearToUlaw sample')).toInt) ∧
    (∀ sample sample' : I16, sample'.toInt = -sample.toInt →
      (ulawToLinear (linearToUlaw sample')).toInt = -(ulawToLinear (linearToUlaw sample)).toInt) ∧
    (∀ sample : I16, ulawToLinear (linearToUlaw (ulawToLinear (linearToUlaw sample))) =
      ulawToLinear (linearToUlaw sample)) ∧
    ∀ code : U8, linearToUlaw (ulawToLinear code) = code ↔ code ≠ 0x7F := by
  refine ⟨fun _ _ => ulawReconstruct_mono, fun _ _ => ulawReconstruct_neg, ulawReconstruct_idem, ?_⟩
  decide +kernel

end RtpStreamer
