import Mathlib.Algebra.Order.Group.Unbundled.Int
import Mathlib.Tactic.Linarith
import Mathlib.Tactic.Positivity
import Mathlib.Tactic.Ring

/-!
# Segmented quantizers

A number is stored as a segment and a significand of `p + 1` bits, whose top bit is not stored. A step of
segment `e` is `2 * half s e` wide, twice as wide as in the segment before, and a number is reconstructed
in the middle of its step. So the error grows with the number, and what has been reconstructed once is
reconstructed exactly.
-/

namespace Segmented

variable {p s e e' n n' k : Nat}

/-- Half a step of segment `e`. -/
def half (s e : Nat) : Nat := 2 ^ (s + e)

/-- The numbers of segment `e`. -/
structure InSegment (p s e n : Nat) : Prop where
  le : 2 ^ p * (2 * half s e) ≤ n
  lt : n < 2 ^ (p + 1) * (2 * half s e)

/-- The step of `n` in segment `e`. -/
def significand (s e n : Nat) : Nat := n / (2 * half s e)

/-- The middle of step `k` of segment `e`. -/
def midpoint (s e k : Nat) : Nat := (2 * k + 1) * half s e

theorem half_pos (s e : Nat) : 0 < half s e := Nat.two_pow_pos _

theorem half_succ (s e : Nat) : half s (e + 1) = 2 * half s e := by
  unfold half
  rw [← Nat.add_assoc, Nat.pow_succ, Nat.mul_comm]

theorem half_mono (h : e ≤ e') : half s e ≤ half s e' :=
  Nat.pow_le_pow_right (by decide) (by omega)

theorem significand_bounds (h : InSegment p s e n) :
    2 ^ p ≤ significand s e n ∧ significand s e n < 2 ^ (p + 1) := by
  have hpos : 0 < 2 * half s e := Nat.mul_pos (by decide) (half_pos s e)
  exact ⟨(Nat.le_div_iff_mul_le hpos).mpr h.le, (Nat.div_lt_iff_lt_mul hpos).mpr h.lt⟩

/-- The middle of its step is at most half a step away from a number. -/
theorem midpoint_near (s e n : Nat) :
    midpoint s e (significand s e n) ≤ n + half s e ∧
      n < midpoint s e (significand s e n) + half s e := by
  have hpos : 0 < 2 * half s e := Nat.mul_pos (by decide) (half_pos s e)
  have hdiv := Nat.div_add_mod n (2 * half s e)
  have hmod := Nat.mod_lt n hpos
  have hmid : midpoint s e (significand s e n) = 2 * half s e * (n / (2 * half s e)) + half s e := by
    unfold midpoint significand
    ring
  omega

/-- The error is a fixed fraction of the number. -/
theorem error_le (h : InSegment p s e n) :
    2 ^ (p + 1) * |(midpoint s e (significand s e n) : Int) - n| ≤ n := by
  obtain ⟨hle, hlt⟩ := midpoint_near s e n
  have habs : |(midpoint s e (significand s e n) : Int) - n| ≤ half s e := by
    rw [abs_le]
    omega
  have hlow : 2 ^ (p + 1) * half s e ≤ n := by
    have hle := h.le
    rwa [← Nat.mul_assoc, ← Nat.pow_succ] at hle
  calc (2 : Int) ^ (p + 1) * |(midpoint s e (significand s e n) : Int) - n|
      ≤ 2 ^ (p + 1) * half s e := Int.mul_le_mul_of_nonneg_left habs (by positivity)
    _ = ((2 ^ (p + 1) * half s e : Nat) : Int) := by push_cast; ring
    _ ≤ n := Int.ofNat_le.mpr hlow

theorem inSegment_midpoint (s e : Nat) (hle : 2 ^ p ≤ k) (hlt : k < 2 ^ (p + 1)) :
    InSegment p s e (midpoint s e k) := by
  have hpos := half_pos s e
  have hmid : midpoint s e k = k * (2 * half s e) + half s e := by
    unfold midpoint
    ring
  have hlow := Nat.mul_le_mul_right (2 * half s e) hle
  have hhigh := Nat.mul_le_mul_right (2 * half s e) hlt
  rw [Nat.succ_mul] at hhigh
  exact ⟨by omega, by omega⟩

theorem significand_midpoint (s e k : Nat) : significand s e (midpoint s e k) = k := by
  have hpos := half_pos s e
  have hmid : midpoint s e k = half s e + 2 * half s e * k := by
    unfold midpoint
    ring
  unfold significand
  rw [hmid, Nat.add_mul_div_left _ _ (by omega), Nat.div_eq_of_lt (by omega), Nat.zero_add]

/-- A segment ends where a later one begins, or before. -/
theorem InSegment.lt_of_lt (h : InSegment p s e n) (h' : InSegment p s e' n') (hlt : e < e') : n < n' := by
  have hstep : 2 * half s e ≤ half s e' := (half_succ s e).symm.trans_le (half_mono hlt)
  calc n < 2 ^ (p + 1) * (2 * half s e) := h.lt
    _ ≤ 2 ^ (p + 1) * half s e' := Nat.mul_le_mul_left _ hstep
    _ = 2 ^ p * (2 * half s e') := by ring
    _ ≤ n' := h'.le

theorem InSegment.unique (h : InSegment p s e n) (h' : InSegment p s e' n) : e = e' := by
  rcases Nat.lt_trichotomy e e' with hlt | heq | hgt
  · exact absurd (h.lt_of_lt h' hlt) (Nat.lt_irrefl n)
  · exact heq
  · exact absurd (h'.lt_of_lt h hgt) (Nat.lt_irrefl n)

/-- The reconstruction keeps the order. -/
theorem midpoint_mono (h : InSegment p s e n) (h' : InSegment p s e' n') (hle : n ≤ n') :
    midpoint s e (significand s e n) ≤ midpoint s e' (significand s e' n') := by
  rcases Nat.lt_trichotomy e e' with hlt | rfl | hgt
  · obtain ⟨hlow, hhigh⟩ := significand_bounds h
    obtain ⟨hlow', hhigh'⟩ := significand_bounds h'
    exact ((inSegment_midpoint s e hlow hhigh).lt_of_lt (inSegment_midpoint s e' hlow' hhigh') hlt).le
  · have hsig : significand s e n ≤ significand s e n' := Nat.div_le_div_right hle
    exact Nat.mul_le_mul_right _ (by omega)
  · exact absurd (h'.lt_of_lt h hgt) (Nat.not_lt.mpr hle)

end Segmented
