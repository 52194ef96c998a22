import Mathlib.Algebra.Order.Field.Basic
import Mathlib.Tactic.FieldSimp
import Mathlib.Tactic.Linarith
import Mathlib.Tactic.Ring

/-!
# Exponential moving averages

The average of window `n` moves by an `n`-th of the way toward every sample. Scaled by the powers of the
window it is a sum of the samples, each with the weight that it still has: `average_mul_pow` gives the
closed form, `average_lt_iff` a threshold on the average as one on the sum, and `le_average` and
`average_lt` say that an average stays within the bounds of its samples. From outside of them it approaches
them geometrically (`average_le_of_forall_le`, `le_average_of_forall_le`).
-/

namespace MovingAverage

/-- The sum of the samples, each multiplied by `keep` for every sample after it and by `window` for every
sample before it. -/
def weightedSum {R : Type*} [Semiring R] (keep window : R) : List R → R
  | [] => 0
  | x :: xs => keep ^ xs.length * x + window * weightedSum keep window xs

theorem weightedSum_map {R S : Type*} [Semiring R] [Semiring S] (f : R →+* S) (keep window : R)
    (xs : List R) : weightedSum (f keep) (f window) (xs.map f) = f (weightedSum keep window xs) := by
  induction xs with
  | nil => exact (map_zero f).symm
  | cons x xs ih =>
    simp only [List.map_cons, weightedSum, ih, List.length_map, map_add, map_mul, map_pow]

variable {K : Type*} [Field K]

/-- The average after one more sample. -/
def step (window average sample : K) : K := average + (sample - average) / window

/-- The average after the samples, from a given value. -/
def average (window start : K) (samples : List K) : K := samples.foldl (step window) start

theorem average_cons (window start x : K) (xs : List K) :
    average window start (x :: xs) = average window (step window start x) xs := rfl

theorem average_snoc (window start x : K) (xs : List K) :
    average window start (xs ++ [x]) = step window (average window start xs) x := by
  simp only [average, List.foldl_append, List.foldl_cons, List.foldl_nil]

theorem average_append (window start : K) (xs ys : List K) :
    average window start (xs ++ ys) = average window (average window start xs) ys := List.foldl_append

theorem step_mul {window : K} (hw : window ≠ 0) (average sample : K) :
    step window average sample * window = (window - 1) * average + sample := by
  unfold step
  field_simp
  ring

/-- The closed form of the average. -/
theorem average_mul_pow {window : K} (hw : window ≠ 0) (start : K) (samples : List K) :
    average window start samples * window ^ samples.length =
      (window - 1) ^ samples.length * start + weightedSum (window - 1) window samples := by
  induction samples generalizing start with
  | nil => simp [average, weightedSum]
  | cons x xs ih =>
    have hstep := step_mul hw start x
    calc average window start (x :: xs) * window ^ (x :: xs).length
        = average window (step window start x) xs * window ^ xs.length * window := by
          rw [average_cons, List.length_cons, pow_succ, mul_assoc]
      _ = (window - 1) ^ xs.length * (step window start x * window) +
            weightedSum (window - 1) window xs * window := by
          rw [ih]
          ring
      _ = (window - 1) ^ (x :: xs).length * start +
            weightedSum (window - 1) window (x :: xs) := by
          rw [hstep, List.length_cons, weightedSum]
          ring

section Order

variable [LinearOrder K] [IsStrictOrderedRing K]

/-- An average that starts at zero is below a threshold exactly when the weighted sum is. -/
theorem average_lt_iff {window : K} (hw : 0 < window) (samples : List K) (bound : K) :
    average window 0 samples < bound ↔
      weightedSum (window - 1) window samples < bound * window ^ samples.length := by
  have hform := average_mul_pow hw.ne' 0 samples
  rw [mul_zero, zero_add] at hform
  rw [← hform]
  exact (mul_lt_mul_iff_left₀ (pow_pos hw _)).symm

theorem le_step {window bound average sample : K} (hw : 1 ≤ window) (ha : bound ≤ average)
    (hs : bound ≤ sample) : bound ≤ step window average sample := by
  have hpos : 0 < window := lt_of_lt_of_le one_pos hw
  refine le_of_mul_le_mul_right ?_ hpos
  rw [step_mul hpos.ne']
  nlinarith

theorem step_lt {window bound average sample : K} (hw : 1 ≤ window) (ha : average < bound)
    (hs : sample < bound) : step window average sample < bound := by
  have hpos : 0 < window := lt_of_lt_of_le one_pos hw
  refine lt_of_mul_lt_mul_right ?_ hpos.le
  rw [step_mul hpos.ne']
  nlinarith

theorem le_average {window bound start : K} (hw : 1 ≤ window) (hstart : bound ≤ start)
    {samples : List K} (h : ∀ x ∈ samples, bound ≤ x) : bound ≤ average window start samples := by
  induction samples generalizing start with
  | nil => exact hstart
  | cons x xs ih =>
    obtain ⟨hx, hxs⟩ := List.forall_mem_cons.mp h
    exact ih (le_step hw hstart hx) hxs

theorem average_lt {window bound start : K} (hw : 1 ≤ window) (hstart : start < bound)
    {samples : List K} (h : ∀ x ∈ samples, x < bound) : average window start samples < bound := by
  induction samples generalizing start with
  | nil => exact hstart
  | cons x xs ih =>
    obtain ⟨hx, hxs⟩ := List.forall_mem_cons.mp h
    exact ih (step_lt hw hstart hx) hxs

/-- The excess over a bound of the sample shrinks by a factor. -/
theorem step_le_add {window bound excess average sample : K} (hw : 1 ≤ window)
    (ha : average ≤ bound + excess) (hs : sample ≤ bound) :
    step window average sample ≤ bound + excess * ((window - 1) / window) := by
  have hpos : 0 < window := lt_of_lt_of_le one_pos hw
  refine le_of_mul_le_mul_right ?_ hpos
  calc step window average sample * window
      = (window - 1) * average + sample := step_mul hpos.ne' average sample
    _ ≤ (window - 1) * (bound + excess) + bound :=
        add_le_add (mul_le_mul_of_nonneg_left ha (sub_nonneg.mpr hw)) hs
    _ = (bound + excess * ((window - 1) / window)) * window := by
        field_simp
        ring

theorem average_le_of_forall_le {window bound excess start : K} (hw : 1 ≤ window)
    (hstart : start ≤ bound + excess) {samples : List K} (h : ∀ x ∈ samples, x ≤ bound) :
    average window start samples ≤ bound + excess * ((window - 1) / window) ^ samples.length := by
  induction samples generalizing start excess with
  | nil => simpa [average] using hstart
  | cons x xs ih =>
    obtain ⟨hx, hxs⟩ := List.forall_mem_cons.mp h
    have hrest := ih (step_le_add hw hstart hx) hxs
    rwa [mul_assoc, ← pow_succ'] at hrest

theorem step_neg (window average sample : K) :
    step window (-average) (-sample) = -step window average sample := by
  unfold step
  ring

theorem average_neg (window start : K) (samples : List K) :
    average window (-start) (samples.map Neg.neg) = -average window start samples := by
  induction samples generalizing start with
  | nil => rfl
  | cons x xs ih => rw [List.map_cons, average_cons, step_neg, ih, average_cons]

theorem le_average_of_forall_le {window bound deficit start : K} (hw : 1 ≤ window)
    (hstart : bound - deficit ≤ start) {samples : List K} (h : ∀ x ∈ samples, bound ≤ x) :
    bound - deficit * ((window - 1) / window) ^ samples.length ≤ average window start samples := by
  have hneg : ∀ x ∈ samples.map Neg.neg, x ≤ -bound := by
    intro x hx
    obtain ⟨y, hy, rfl⟩ := List.mem_map.mp hx
    exact neg_le_neg (h y hy)
  have hexcess : -start ≤ -bound + deficit := by linarith
  have hle := average_le_of_forall_le hw hexcess hneg
  rw [average_neg, List.length_map] at hle
  linarith

end Order

end MovingAverage
