import RtpStreamer.Run.DetSystem

/-!
# Fair schedules

A schedule has `n` rounds when it falls into `n` parts in each of which every thread moves. A system comes
to rest under such a schedule when it has a rank that no move raises and that names in every state a
helpful thread: its next move lowers the rank, whatever the other threads do before it.
-/

namespace DetSystem

variable {ι : Type*} {ο : Type*} {θ : Type*} {M : DetSystem ι ο}

/-- At least `n` rounds. -/
inductive Rounds (thread : ι → θ) : ℕ → List ι → Prop
  | rest (is : List ι) : Rounds thread 0 is
  | round {n : ℕ} {is js : List ι} (moves : ∀ t, ∃ i ∈ is, thread i = t) (h : Rounds thread n js) :
      Rounds thread (n + 1) (is ++ js)

/-- The schedule that repeats one round. -/
theorem rounds_replicate {thread : ι → θ} {is : List ι} (moves : ∀ t, ∃ i ∈ is, thread i = t) (n : ℕ) :
    Rounds thread n (List.replicate n is).flatten := by
  induction n with
  | zero => exact .rest _
  | succ n ih => exact .round moves ih

/-- What every step has to do: lower the rank, or leave the helpful thread to its move. -/
structure Helpful (M : DetSystem ι ο) (I : M.State → Prop) (thread : ι → θ) (rank : M.State → ℕ)
    (helpful : M.State → θ) : Prop where
  keep : ∀ s i, I s → I (M.next s i)
  step : ∀ s i, I s → rank s ≠ 0 → rank (M.next s i) < rank s ∨
    thread i ≠ helpful s ∧ rank (M.next s i) = rank s ∧ helpful (M.next s i) = helpful s
  stop : ∀ s i, I s → rank s = 0 → rank (M.next s i) = 0

namespace Helpful

variable {I : M.State → Prop} {thread : ι → θ} {rank : M.State → ℕ} {helpful : M.State → θ}

theorem foldl_keep (h : Helpful M I thread rank helpful) (is : List ι) :
    ∀ s, I s → I (is.foldl M.next s) := by
  induction is with
  | nil => exact fun _ hs => hs
  | cons i is ih => exact fun s hs => ih _ (h.keep s i hs)

theorem rank_next_le (h : Helpful M I thread rank helpful) {s : M.State} (hs : I s) (i : ι) :
    rank (M.next s i) ≤ rank s := by
  by_cases hzero : rank s = 0
  · rw [h.stop s i hs hzero]
    exact Nat.zero_le _
  · rcases h.step s i hs hzero with hlt | ⟨_, heq, _⟩
    · exact Nat.le_of_lt hlt
    · exact Nat.le_of_eq heq

theorem rank_foldl_le (h : Helpful M I thread rank helpful) (is : List ι) :
    ∀ s, I s → rank (is.foldl M.next s) ≤ rank s := by
  induction is with
  | nil => exact fun _ _ => Nat.le_refl _
  | cons i is ih => exact fun s hs => Nat.le_trans (ih _ (h.keep s i hs)) (h.rank_next_le hs i)

/-- A part of the schedule in which the helpful thread moves lowers the rank. -/
theorem rank_foldl_lt (h : Helpful M I thread rank helpful) (is : List ι) :
    ∀ s, I s → rank s ≠ 0 → (∃ i ∈ is, thread i = helpful s) → rank (is.foldl M.next s) < rank s := by
  induction is with
  | nil => exact fun s _ _ ⟨_, hmem, _⟩ => absurd hmem List.not_mem_nil
  | cons i is ih =>
    intro s hs hne hmoves
    have hle := h.rank_foldl_le is _ (h.keep s i hs)
    rcases h.step s i hs hne with hlt | ⟨hother, heq, hsame⟩
    · exact Nat.lt_of_le_of_lt hle hlt
    · obtain ⟨j, hmem, hj⟩ := hmoves
      have hmem : j ∈ is := by
        rcases List.mem_cons.mp hmem with rfl | hmem
        · exact absurd hj hother
        · exact hmem
      rw [← heq]
      exact ih _ (h.keep s i hs) (by rwa [heq]) ⟨j, hmem, by rwa [hsame]⟩

/-- **Termination under fairness.** As many rounds as the rank says bring the system to rest. -/
theorem rank_eq_zero (h : Helpful M I thread rank helpful) {n : ℕ} {is : List ι}
    (hrounds : Rounds thread n is) :
    ∀ s, I s → rank s ≤ n → rank (is.foldl M.next s) = 0 := by
  induction hrounds with
  | rest is =>
    intro s hs hle
    have := h.rank_foldl_le is s hs
    omega
  | @round n is js moves _ ih =>
    intro s hs hle
    rw [List.foldl_append]
    refine ih _ (h.foldl_keep is s hs) ?_
    by_cases hzero : rank s = 0
    · have := h.rank_foldl_le is s hs
      omega
    · have := h.rank_foldl_lt is s hs hzero (moves (helpful s))
      omega

end Helpful

end DetSystem
