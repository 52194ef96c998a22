import RtpStreamer.Jitter.Proofs.DepthProofs
import RtpStreamer.Jitter.Proofs.LatenessProofs

/-!
# The depth follows the jitter

The estimate forgets its past geometrically. Whatever the buffer has been through, the distances of the last
360 packets (seven seconds of audio) alone decide where the depth is: between the depth of the smallest and
the depth of the largest of them.
-/

namespace RtpStreamer

open MovingAverage JitterBuffer

/-- The distances of the packets of `calls'` behind those of `calls`. -/
def distancesAfter (calls calls' : List Call) : List Nat :=
  distances ((arrivals calls).getLast?.toList ++ arrivals calls')

/-- The depth, in milliseconds, for an estimate of `samples`. -/
def depthFor (samples : Nat) : Int := clampMs ((samples / 2 : Nat) : Int)

theorem distances_append {pairs : List (U32 × U32)} {previous : U32 × U32}
    (h : pairs.getLast? = some previous) (pairs' : List (U32 × U32)) :
    distances (pairs ++ pairs') = distances pairs ++ distances (previous :: pairs') := by
  induction pairs' generalizing pairs previous with
  | nil => rw [List.append_nil, show distances [previous] = [] from rfl, List.append_nil]
  | cons current pairs' ih =>
    have hsnoc : (pairs ++ [current]).getLast? = some current := by simp
    rw [List.append_cons, ih hsnoc, distances_snoc h, List.append_assoc]
    rfl

theorem distances_arrivals (calls calls' : List Call) :
    distances (arrivals (calls ++ calls')) = distances (arrivals calls) ++ distancesAfter calls calls' := by
  unfold distancesAfter
  rw [arrivals_append]
  cases hlast : (arrivals calls).getLast? with
  | none =>
    rw [List.getLast?_eq_none_iff.mp hlast]
    rfl
  | some previous => exact distances_append hlast (arrivals calls')

theorem distances_lt (pairs : List (U32 × U32)) : ∀ d ∈ distances pairs, d < 2 ^ 33 := by
  intro d hd
  induction pairs with
  | nil => exact absurd hd List.not_mem_nil
  | cons previous pairs ih =>
    cases pairs with
    | nil => exact absurd hd List.not_mem_nil
    | cons current rest =>
      rcases List.mem_cons.mp hd with rfl | hd
      · have h₁ := current.1.isLt
        have h₂ := current.2.isLt
        have h₃ := previous.1.isLt
        have h₄ := previous.2.isLt
        unfold interarrival
        omega
      · exact ih hd

theorem averageDistance_lt (pairs : List (U32 × U32)) : averageDistance (distances pairs) < 2 ^ 33 := by
  refine average_lt (by norm_num) (by norm_num) fun x hx => ?_
  obtain ⟨d, hd, rfl⟩ := List.mem_map.mp hx
  exact_mod_cast distances_lt pairs d hd

theorem averageDistance_append (ds ds' : List Nat) :
    averageDistance (ds ++ ds') = average 16 (averageDistance ds) (ds'.map Nat.cast) := by
  unfold averageDistance
  rw [List.map_append, average_append]

/-- What is left of the past after 360 packets is less than one sample. -/
theorem forgotten {m : Nat} (hm : 360 ≤ m) : (2 : Rat) ^ 33 * ((16 - 1) / 16) ^ m < 1 := by
  have hpow : ((16 - 1 : Rat) / 16) ^ m ≤ (((16 - 1) / 16) ^ 72) ^ 5 := by
    rw [← pow_mul]
    exact pow_le_pow_of_le_one (by norm_num) (by norm_num) hm
  have hblock : ((16 - 1 : Rat) / 16) ^ 72 ≤ 1 / 104 := by norm_num
  calc (2 : Rat) ^ 33 * ((16 - 1) / 16) ^ m
      ≤ 2 ^ 33 * (((16 - 1) / 16) ^ 72) ^ 5 := mul_le_mul_of_nonneg_left hpow (by norm_num)
    _ ≤ 2 ^ 33 * (1 / 104) ^ 5 :=
        mul_le_mul_of_nonneg_left (pow_le_pow_left₀ (by norm_num) hblock 5) (by norm_num)
    _ < 1 := by norm_num

theorem averageDistance_lt_of_forall_le {ds ds' : List Nat} (hbounded : averageDistance ds < 2 ^ 33)
    (hlong : 360 ≤ ds'.length) {high : Nat} (hhigh : ∀ d ∈ ds', d ≤ high) :
    averageDistance (ds ++ ds') < high + 1 := by
  have hstart : averageDistance ds ≤ high + 2 ^ 33 := by
    have hnonneg : (0 : Rat) ≤ high := Nat.cast_nonneg high
    linarith
  have hsamples : ∀ x ∈ ds'.map (Nat.cast : Nat → Rat), x ≤ high := by
    intro x hx
    obtain ⟨d, hd, rfl⟩ := List.mem_map.mp hx
    exact_mod_cast hhigh d hd
  have hwindow : (1 : Rat) ≤ 16 := by norm_num
  have hle := average_le_of_forall_le hwindow hstart hsamples
  rw [List.length_map] at hle
  have hforgotten := forgotten hlong
  rw [averageDistance_append]
  linarith

theorem lt_averageDistance_of_forall_le (ds : List Nat) {ds' : List Nat} (hlong : 360 ≤ ds'.length)
    {low : Nat} (hlow : ∀ d ∈ ds', low ≤ d) (hle : low ≤ 2 ^ 33) :
    (low : Rat) - 1 < averageDistance (ds ++ ds') := by
  have hlowle : (low : Rat) ≤ 2 ^ 33 := by exact_mod_cast hle
  have hstart : (low : Rat) - 2 ^ 33 ≤ averageDistance ds := by
    have hnonneg := averageDistance_nonneg ds
    linarith
  have hsamples : ∀ x ∈ ds'.map (Nat.cast : Nat → Rat), (low : Rat) ≤ x := by
    intro x hx
    obtain ⟨d, hd, rfl⟩ := List.mem_map.mp hx
    exact_mod_cast hlow d hd
  have hwindow : (1 : Rat) ≤ 16 := by norm_num
  have hle := le_average_of_forall_le hwindow hstart hsamples
  rw [List.length_map] at hle
  have hforgotten := forgotten hlong
  rw [averageDistance_append]
  linarith

/-! ## Whole runs -/

/-- The target of an estimate between two whole numbers of samples. -/
theorem targetMsExact_bounds {jitter : Rat} (hnonneg : 0 ≤ jitter) {low high : Nat}
    (hlow : (low : Rat) - 1 < jitter) (hhigh : jitter < high + 1) :
    (((low - 1) / 2 : Nat) : Int) ≤ targetMsExact jitter ∧
      targetMsExact jitter ≤ (((high + 1) / 2 : Nat) : Int) := by
  have hhalf : 4 * jitter * 1000 / 8000 = jitter / 2 := by ring
  rw [targetMsExact_eq_floor hnonneg, hhalf]
  constructor
  · rw [Int.le_floor]
    generalize htarget : (low - 1) / 2 = target
    rcases Nat.eq_zero_or_pos target with rfl | hpos
    · exact div_nonneg hnonneg (by norm_num)
    · have htwice : 2 * (target : Rat) + 1 ≤ low := by
        exact_mod_cast (by omega : 2 * target + 1 ≤ low)
      push_cast
      linarith
  · rw [← Int.lt_add_one_iff, Int.floor_lt]
    generalize htarget : (high + 1) / 2 = target
    have htwice : (high : Rat) + 1 ≤ 2 * target + 1 := by
      exact_mod_cast (by omega : high + 1 ≤ 2 * target + 1)
    push_cast
    linarith

/-- When no distance of a run reaches 2^32, all its conversions are defined. -/
theorem runChecked_of_forall_lt (order : ByteOrder) (fade : Nat → I16 → I16) (options : Options)
    (junk : Vector (Vector U8 kSlotPayloadBytes) kCapacity) (calls : List Call)
    (h : ∀ d ∈ distances (arrivals calls), d < 2 ^ 32) :
    runChecked order fade options junk calls =
      some ((jitterSystem (exactPlatform order fade) options junk).run calls) := by
  refine (runChecked_eq_some_iff order fade options junk calls _).mpr ⟨?_, rfl⟩
  rintro before ⟨rest, rfl⟩
  refine averageBounded_of_forall_lt fun d hd => h d ?_
  rw [distances_arrivals]
  exact List.mem_append_left _ hd

/-- **The depth follows the jitter.** Whatever a run has been through, as long as all its conversions to
`int` were defined: once the distances of 360 packets in a row have been between `low` and `high` samples,
the target depth is between the depths for these, the former less and the latter plus one sample. -/
theorem depth_follows_jitter (order : ByteOrder) (fade : Nat → I16 → I16) (options : Options)
    (junk : Vector (Vector U8 kSlotPayloadBytes) kCapacity) (calls calls' : List Call)
    (jb : JitterBuffer (exactPlatform order fade))
    (hrun : runChecked order fade options junk (calls ++ calls') = some jb) (low high : Nat)
    (hbetween : ∀ d ∈ distancesAfter calls calls', low ≤ d ∧ d ≤ high)
    (hlong : 360 ≤ (distancesAfter calls calls').length) :
    depthFor (low - 1) ≤ jb.estimate.targetDepthMs ∧ jb.estimate.targetDepthMs ≤ depthFor (high + 1) := by
  obtain ⟨_, rfl⟩ := (runChecked_eq_some_iff order fade options junk (calls ++ calls') jb).mp hrun
  have h := adapted_run order fade options junk (calls ++ calls')
  have hsamples := h.samples
  rw [distances_arrivals] at hsamples
  have hpast := averageDistance_lt (arrivals calls)
  have hhigh := averageDistance_lt_of_forall_le hpast hlong fun d hd => (hbetween d hd).2
  have hle : low ≤ 2 ^ 33 := by
    obtain ⟨d, hd⟩ := List.exists_mem_of_length_pos (Nat.lt_of_lt_of_le (by decide) hlong)
    exact (hbetween d hd).1.trans (distances_lt _ d hd).le
  have hlow := lt_averageDistance_of_forall_le (distances (arrivals calls)) hlong
    (fun d hd => (hbetween d hd).1) hle
  rw [← hsamples] at hhigh hlow
  have hnonneg : 0 ≤ ((jitterSystem (exactPlatform order fade) options junk).run
      (calls ++ calls')).estimate.samples := by
    rw [hsamples]
    exact averageDistance_nonneg _
  obtain ⟨htargetLow, htargetHigh⟩ := targetMsExact_bounds hnonneg hlow hhigh
  rw [h.depth]
  exact ⟨clampMs_mono htargetLow, clampMs_mono htargetHigh⟩

/-! ## A stream that has been held up once -/

/-- Packet 1 comes twelve seconds late. -/
def heldUpCalls : List Call := [.push (silentPacket 0) 0, .push (silentPacket 1) 100000]

/-- The packets behind it are as far apart as their timestamps. -/
def regularCalls : List Call :=
  (List.range 360).map fun k => .push (silentPacket (k + 2)) (BitVec.ofNat 32 (100160 + 160 * k))

/-- Packet 1 lifts the depth to its bound, and after 360 of the packets behind it the depth is 100 ms
again. -/
theorem depth_follows_jitter_example :
    (runChecked .little (fun _ sample => sample) {} (Vector.replicate _ (Vector.replicate _ 0))
      heldUpCalls).map (fun jb => jb.estimate.targetDepthMs) = some 200 ∧
    ∃ jb, runChecked .little (fun _ sample => sample) {} (Vector.replicate _ (Vector.replicate _ 0))
      (heldUpCalls ++ regularCalls) = some jb ∧ jb.estimate.targetDepthMs = 100 := by
  have hrun := runChecked_of_forall_lt .little (fun _ sample => sample) {}
    (Vector.replicate _ (Vector.replicate _ 0)) (heldUpCalls ++ regularCalls) (by decide +kernel)
  obtain ⟨hlow, hhigh⟩ := depth_follows_jitter .little (fun _ sample => sample) {}
    (Vector.replicate _ (Vector.replicate _ 0)) heldUpCalls regularCalls _ hrun 0 0 (by decide +kernel)
    (by decide +kernel)
  exact ⟨by decide +kernel, _, hrun, le_antisymm hhigh hlow⟩

end RtpStreamer
