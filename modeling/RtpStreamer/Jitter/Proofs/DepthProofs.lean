import RtpStreamer.Average.MovingAverage
import RtpStreamer.Jitter.CheckedDepth
import RtpStreamer.Jitter.Proofs.TimestampProofs
import Mathlib.Data.Rat.Floor

/-!
# When the conversion of the adaptive depth is defined

The estimate is the exponential moving average, of window 16, of the distances of the packets in a row.
The source converts the target depth to `int` before it clamps it, so the conversion is defined as long
as the average stays below 2^32 samples; its closed form turns that into a condition on the distances
alone. Since one distance can reach almost 2^33, the condition is not always met.
-/

namespace RtpStreamer

open MovingAverage

/-- The distances `|D|` of the packets in a row. -/
def distances : List (U32 × U32) → List Nat
  | previous :: current :: rest =>
    (interarrival previous current).natAbs :: distances (current :: rest)
  | _ => []

theorem distances_snoc {pairs : List (U32 × U32)} {previous : U32 × U32}
    (h : pairs.getLast? = some previous) (current : U32 × U32) :
    distances (pairs ++ [current]) = distances pairs ++ [(interarrival previous current).natAbs] := by
  induction pairs with
  | nil => cases h
  | cons first pairs ih =>
    cases pairs with
    | nil =>
      obtain rfl : first = previous := Option.some.inj h
      rfl
    | cons second pairs =>
      have hrest := ih (by rwa [List.getLast?_cons_cons] at h)
      show _ :: distances (second :: pairs ++ [current]) = _
      rw [hrest]
      rfl

/-- The distances of a run, each with the weight that it has in the estimate, sum up to less than an
average of 2^32. -/
def AverageBounded (ds : List Nat) : Prop := weightedSum 15 16 ds < 2 ^ 32 * 16 ^ ds.length

instance (ds : List Nat) : Decidable (AverageBounded ds) := inferInstanceAs (Decidable (_ < _))

/-- The estimate as a function of the distances. -/
def averageDistance (ds : List Nat) : Rat := average 16 0 (ds.map Nat.cast)

theorem averageDistance_nonneg (ds : List Nat) : 0 ≤ averageDistance ds := by
  refine le_average (by norm_num) le_rfl fun x hx => ?_
  obtain ⟨d, _, rfl⟩ := List.mem_map.mp hx
  exact Nat.cast_nonneg d

theorem averageDistance_lt_iff (ds : List Nat) : averageDistance ds < 2 ^ 32 ↔ AverageBounded ds := by
  have hsum : weightedSum (16 - 1) 16 (ds.map Nat.cast) = ((weightedSum 15 16 ds : Nat) : Rat) := by
    rw [show (16 - 1 : Rat) = Nat.castRingHom Rat 15 by norm_num,
      show (16 : Rat) = Nat.castRingHom Rat 16 by norm_num]
    exact weightedSum_map (Nat.castRingHom Rat) 15 16 ds
  unfold averageDistance AverageBounded
  rw [average_lt_iff (by norm_num), hsum, List.length_map]
  exact_mod_cast Iff.rfl

/-- Distances below 2^32 keep the average below 2^32. -/
theorem averageBounded_of_forall_lt {ds : List Nat} (h : ∀ d ∈ ds, d < 2 ^ 32) : AverageBounded ds := by
  rw [← averageDistance_lt_iff]
  refine average_lt (by norm_num) (by norm_num) fun x hx => ?_
  obtain ⟨d, hd, rfl⟩ := List.mem_map.mp hx
  exact_mod_cast h d hd

/-! ## The conversion -/

theorem targetMsExact_eq_floor {jitter : Rat} (h : 0 ≤ jitter) :
    targetMsExact jitter = ⌊4 * jitter * 1000 / 8000⌋ := by
  have htarget : 4 * (jitter * 1000 / (kSampleRateHz : Rat)) = 4 * jitter * 1000 / 8000 := by
    rw [show (kSampleRateHz : Rat) = 8000 by norm_num [kSampleRateHz]]
    ring
  have hnonneg : 0 ≤ 4 * jitter * 1000 / 8000 := by positivity
  unfold targetMsExact
  dsimp only
  rw [htarget, Rat.floor_def', Int.tdiv_eq_ediv_of_nonneg (Rat.num_nonneg.mpr hnonneg)]

/-- The conversion is defined exactly for estimates below 2^32. -/
theorem castInt_target {jitter : Rat} (h : 0 ≤ jitter) :
    castInt (4 * (jitter * 1000 / (kSampleRateHz : Rat))) =
      if jitter < 2 ^ 32 then some (targetMsExact jitter) else none := by
  have hfloor := targetMsExact_eq_floor h
  have hnonneg : 0 ≤ targetMsExact jitter := by
    rw [hfloor]
    exact Int.floor_nonneg.mpr (by positivity)
  have hrange : targetMsExact jitter ≤ 0x7FFFFFFF ↔ jitter < 2 ^ 32 := by
    rw [hfloor, ← Int.lt_add_one_iff, Int.floor_lt]
    constructor <;> intro h <;> norm_num at h ⊢ <;> linarith
  show (if -0x80000000 ≤ targetMsExact jitter ∧ targetMsExact jitter ≤ 0x7FFFFFFF then
    some (targetMsExact jitter) else none) = _
  refine if_congr ⟨fun hin => hrange.mp hin.2, fun hlt => ⟨by omega, hrange.mpr hlt⟩⟩ rfl rfl

theorem clampMs_mono {a b : Int} (h : a ≤ b) : clampMs a ≤ clampMs b := by
  have hmin : kMinTargetMs = 100 := rfl
  have hmax : kMaxTargetMs = 200 := rfl
  unfold clampMs
  split_ifs <;> omega

variable {order : ByteOrder} {fade : Nat → I16 → I16}

theorem accumulateExact_nonneg {jitter : Rat} (h : 0 ≤ jitter) (d : Int) :
    0 ≤ accumulateExact jitter d := le_step (by norm_num) h (Nat.cast_nonneg _)

/-- `jitter_estimate_samples_`, as the rational that it is. -/
def JitterEstimate.samples (est : JitterEstimate (exactPlatform order fade)) : Rat :=
  est.jitterEstimateSamples

theorem updateJitterEstimateChecked_eq (options : Options)
    {est : JitterEstimate (exactPlatform order fade)} (h0 : 0 ≤ est.samples)
    (hlt : est.samples < 2 ^ 32) (rtpTimestamp arrivalSamples : U32) :
    updateJitterEstimateChecked options est rtpTimestamp arrivalSamples =
      if (updateJitterEstimate options est rtpTimestamp arrivalSamples).samples < 2 ^ 32 then
        some (updateJitterEstimate options est rtpTimestamp arrivalSamples)
      else none := by
  unfold updateJitterEstimateChecked updateJitterEstimate
  cases est.havePrevArrival with
  | false => exact (if_pos hlt).symm
  | true =>
    set d : Int := (arrivalSamples.toNat : Int) - est.prevArrivalSamples.toNat -
      ((rtpTimestamp.toNat : Int) - est.prevRtpTimestamp.toNat)
    have hcast := castInt_target (accumulateExact_nonneg h0 d)
    show ((castInt (4 * (accumulateExact est.samples d * 1000 / (kSampleRateHz : Rat)))).bind _).bind _ =
      if accumulateExact est.samples d < 2 ^ 32 then _ else _
    rw [hcast]
    by_cases hd : accumulateExact est.samples d < 2 ^ 32
    · rw [if_pos hd, if_pos hd]
      rfl
    · rw [if_neg hd, if_neg hd]
      rfl

/-- What the conversion is made of: the depth is the clamped target of the estimate. -/
theorem updateJitterEstimate_targetDepthMs (options : Options)
    {est : JitterEstimate (exactPlatform order fade)}
    (h : est.targetDepthMs = clampMs (targetMsExact est.samples)) (rtpTimestamp arrivalSamples : U32) :
    (updateJitterEstimate options est rtpTimestamp arrivalSamples).targetDepthMs =
      clampMs (targetMsExact
        (updateJitterEstimate options est rtpTimestamp arrivalSamples).samples) := by
  unfold updateJitterEstimate
  cases est.havePrevArrival with
  | false => exact h
  | true => rfl

namespace JitterBuffer

/-! ## Runs -/

/-- The estimate is the average of the distances, and the depth follows it. -/
structure Adapted (jb : JitterBuffer (exactPlatform order fade)) (calls : List Call) : Prop where
  remembers : jb.estimate.Remembers (arrivals calls).getLast?
  samples : jb.estimate.samples = averageDistance (distances (arrivals calls))
  depth : jb.estimate.targetDepthMs = clampMs (targetMsExact jb.estimate.samples)

theorem Adapted.push {jb : JitterBuffer (exactPlatform order fade)} {calls : List Call}
    (h : jb.Adapted calls) (packet : Packet) (arrival : U32) :
    (jb.push packet arrival).Adapted (calls ++ [.push packet arrival]) := by
  refine ⟨remembers_next h.remembers (.push packet arrival), ?_, ?_⟩
  · rw [arrivals_append_push]
    cases hlast : (arrivals calls).getLast? with
    | none =>
      -- the first packet has no distance, and leaves the estimate alone
      have hnil : arrivals calls = [] := List.getLast?_eq_none_iff.mp hlast
      have hhave : jb.estimate.havePrevArrival = false := by
        have hrem := h.remembers
        rwa [hlast] at hrem
      rw [push_estimate, hnil]
      have hsamples := h.samples
      rw [hnil] at hsamples
      refine Eq.trans ?_ hsamples
      unfold updateJitterEstimate
      rw [hhave]
      rfl
    | some previous =>
      have hrem := h.remembers
      rw [hlast] at hrem
      rw [distances_snoc hlast]
      refine (push_jitterEstimate jb packet arrival hrem).trans ?_
      unfold averageDistance
      rw [List.map_append, List.map_singleton, average_snoc]
      exact congrArg (accumulateExact · _) h.samples
  · rw [push_estimate]
    exact updateJitterEstimate_targetDepthMs jb.options h.depth packet.rtpTimestamp arrival

theorem Adapted.next {jb : JitterBuffer (exactPlatform order fade)} {calls : List Call}
    (h : jb.Adapted calls) (call : Call) : (jb.next call).Adapted (calls ++ [call]) := by
  cases call with
  | push packet arrival => exact h.push packet arrival
  | pull now =>
    have hest : (jb.next (.pull now)).estimate = jb.estimate := pull_estimate jb now
    refine ⟨remembers_next h.remembers _, ?_, ?_⟩
    · rw [arrivals_append, hest]
      exact h.samples.trans (by rw [show arrivals [.pull now] = [] from rfl, List.append_nil])
    · rw [hest]
      exact h.depth
  | markStreamEnded =>
    refine ⟨remembers_next h.remembers _, ?_, h.depth⟩
    rw [arrivals_append]
    exact h.samples.trans (by rw [show arrivals [.markStreamEnded] = [] from rfl, List.append_nil])

theorem adapted_run (order : ByteOrder) (fade : Nat → I16 → I16) (options : Options)
    (junk : Vector (Vector U8 kSlotPayloadBytes) kCapacity) (calls : List Call) :
    Adapted ((jitterSystem (exactPlatform order fade) options junk).run calls) calls := by
  refine DetSystem.run_induction (M := jitterSystem (exactPlatform order fade) options junk)
    (P := fun calls jb => Adapted jb calls) ⟨rfl, rfl, ?_⟩ (fun _ call h => h.next call) calls
  show kMinTargetMs = clampMs (targetMsExact 0)
  rw [targetMsExact_eq_floor le_rfl]
  simp [clampMs, kMinTargetMs]

/-- A call that finds the estimate in range returns exactly when it leaves it there. -/
theorem nextChecked_eq {jb : JitterBuffer (exactPlatform order fade)} (h0 : 0 ≤ jb.estimate.samples)
    (hlt : jb.estimate.samples < 2 ^ 32) (call : Call) :
    jb.nextChecked call =
      if (jb.next call).estimate.samples < 2 ^ 32 then some (jb.next call) else none := by
  cases call with
  | push packet arrival =>
    have hest : (jb.next (.push packet arrival)).estimate =
        updateJitterEstimate jb.options jb.estimate packet.rtpTimestamp arrival :=
      push_estimate jb packet arrival
    have hupdate := updateJitterEstimateChecked_eq jb.options h0 hlt packet.rtpTimestamp arrival
    rw [hest]
    show (updateJitterEstimateChecked jb.options jb.estimate packet.rtpTimestamp arrival).bind _ = _
    rw [hupdate]
    split_ifs <;> rfl
  | pull now =>
    have hest : (jb.next (.pull now)).estimate = jb.estimate := pull_estimate jb now
    rw [hest, if_pos hlt]
    rfl
  | markStreamEnded => exact (if_pos hlt).symm

theorem runChecked_snoc (order : ByteOrder) (fade : Nat → I16 → I16) (options : Options)
    (junk : Vector (Vector U8 kSlotPayloadBytes) kCapacity) (calls : List Call) (call : Call) :
    runChecked order fade options junk (calls ++ [call]) =
      (runChecked order fade options junk calls).bind fun jb => jb.nextChecked call := by
  unfold runChecked
  rw [List.foldlM_append]
  simp only [List.foldlM_cons, List.foldlM_nil, bind_pure]
  rfl

/-- The checked run returns exactly when the average stayed in range, and then it is the run of the
model. -/
theorem runChecked_eq_some_iff (order : ByteOrder) (fade : Nat → I16 → I16) (options : Options)
    (junk : Vector (Vector U8 kSlotPayloadBytes) kCapacity) (calls : List Call)
    (jb : JitterBuffer (exactPlatform order fade)) :
    runChecked order fade options junk calls = some jb ↔
      (∀ before, before <+: calls → AverageBounded (distances (arrivals before))) ∧
        jb = (jitterSystem (exactPlatform order fade) options junk).run calls := by
  induction calls using List.reverseRecOn generalizing jb with
  | nil =>
    constructor
    · intro h
      refine ⟨fun before hb => ?_, (Option.some.inj h).symm⟩
      rw [List.prefix_nil.mp hb]
      decide
    · rintro ⟨_, rfl⟩
      rfl
  | append_singleton calls call ih =>
    have hold := adapted_run order fade options junk calls
    have hnew := adapted_run order fade options junk (calls ++ [call])
    have h0 := averageDistance_nonneg (distances (arrivals calls))
    rw [← hold.samples] at h0
    have hbounded (cs : List Call) := averageDistance_lt_iff (distances (arrivals cs))
    rw [runChecked_snoc, Option.bind_eq_some_iff]
    constructor
    · rintro ⟨jb', hrun, hnext⟩
      obtain ⟨hbefore, rfl⟩ := (ih jb').mp hrun
      have hlt := (hbounded calls).mpr (hbefore calls (List.prefix_refl calls))
      rw [← hold.samples] at hlt
      rw [nextChecked_eq h0 hlt] at hnext
      by_cases hin : (next ((jitterSystem (exactPlatform order fade) options junk).run calls)
          call).estimate.samples < 2 ^ 32
      · rw [if_pos hin] at hnext
        refine ⟨fun before hb => ?_, ?_⟩
        · rcases List.prefix_concat_iff.mp hb with rfl | hb
          · rw [← hbounded, ← hnew.samples, DetSystem.run_snoc]
            exact hin
          · exact hbefore before hb
        · rw [DetSystem.run_snoc]
          exact (Option.some.inj hnext).symm
      · rw [if_neg hin] at hnext
        cases hnext
    · rintro ⟨hbefore, rfl⟩
      have hinit : ∀ before, before <+: calls → AverageBounded (distances (arrivals before)) :=
        fun before hb => hbefore before (hb.trans (List.prefix_append calls [call]))
      refine ⟨_, (ih _).mpr ⟨hinit, rfl⟩, ?_⟩
      have hlt := (hbounded calls).mpr (hinit calls (List.prefix_refl calls))
      have hin := (hbounded (calls ++ [call])).mpr (hbefore _ (List.prefix_refl _))
      rw [← hold.samples] at hlt
      rw [← hnew.samples, DetSystem.run_snoc] at hin
      rw [nextChecked_eq h0 hlt, DetSystem.run_snoc]
      exact if_pos hin

end JitterBuffer

open JitterBuffer

/-- Every conversion of the run is defined, and in each of its states the target depth is the clamped
floor of four times the estimate in milliseconds. -/
def DepthConverts (order : ByteOrder) (fade : Nat → I16 → I16) (options : Options)
    (junk : Vector (Vector U8 kSlotPayloadBytes) kCapacity) (calls : List Call) : Prop :=
  ∀ before, before <+: calls → ∃ jb, runChecked order fade options junk before = some jb ∧
    jb.estimate.targetDepthMs = clampMs ⌊4 * jb.estimate.samples * 1000 / 8000⌋

/-- **The conversion of the adaptive depth.** The conversions of a run are defined, and its depths are
those of the formula, exactly when the weighted average of the distances stays below 2^32 throughout;
among runs that return, a larger estimate never gives a smaller depth. -/
theorem adaptive_depth_converts (order : ByteOrder) (fade : Nat → I16 → I16) (options : Options)
    (junk : Vector (Vector U8 kSlotPayloadBytes) kCapacity) (calls : List Call) :
    (DepthConverts order fade options junk calls ↔
      ∀ before, before <+: calls → AverageBounded (distances (arrivals before))) ∧
    ∀ calls' jb jb', runChecked order fade options junk calls = some jb →
      runChecked order fade options junk calls' = some jb' →
      jb.estimate.samples ≤ jb'.estimate.samples →
      jb.estimate.targetDepthMs ≤ jb'.estimate.targetDepthMs := by
  have hdepth (cs : List Call) (jb : JitterBuffer (exactPlatform order fade))
      (hrun : runChecked order fade options junk cs = some jb) :
      jb.estimate.targetDepthMs = clampMs ⌊4 * jb.estimate.samples * 1000 / 8000⌋ := by
    obtain ⟨_, rfl⟩ := (runChecked_eq_some_iff order fade options junk cs jb).mp hrun
    have hadapted := adapted_run order fade options junk cs
    have h0 := averageDistance_nonneg (distances (arrivals cs))
    rw [← hadapted.samples] at h0
    rw [← targetMsExact_eq_floor h0]
    exact hadapted.depth
  refine ⟨⟨?_, ?_⟩, ?_⟩
  · intro h before hb
    obtain ⟨jb, hrun, _⟩ := h before hb
    exact ((runChecked_eq_some_iff order fade options junk before jb).mp hrun).1 before
      (List.prefix_refl before)
  · intro h before hb
    have hrun := (runChecked_eq_some_iff order fade options junk before _).mpr
      ⟨fun earlier he => h earlier (he.trans hb), rfl⟩
    exact ⟨_, hrun, hdepth before _ hrun⟩
  · intro calls' jb jb' hrun hrun' hle
    rw [hdepth calls jb hrun, hdepth calls' jb' hrun']
    refine clampMs_mono (Int.floor_le_floor ?_)
    linarith

/-- Two packets 20 ms apart convert without overflow. -/
theorem adaptive_depth_converts_example :
    DepthConverts .little (fun _ sample => sample) {} (Vector.replicate _ (Vector.replicate _ 0))
      [.push (timedPacket 0 0) 0, .push (timedPacket 0 1) 160] := by
  refine (adaptive_depth_converts .little (fun _ sample => sample) {}
    (Vector.replicate _ (Vector.replicate _ 0)) _).1.mpr fun before hb => ?_
  refine averageBounded_of_forall_lt fun d hd => ?_
  rcases List.prefix_cons_iff.mp hb with rfl | ⟨_, rfl, hrest⟩
  · cases hd
  · rcases List.prefix_cons_iff.mp hrest with rfl | ⟨_, rfl, hnil⟩
    · cases hd
    · obtain rfl := List.prefix_nil.mp hnil
      obtain rfl : d = 0 := List.mem_singleton.mp hd
      norm_num

/-- An empty mu-law packet of a stream whose timestamps swing between the ends of their range. -/
def swingPacket (k : Nat) : Packet where
  sequenceNumber := BitVec.ofNat 16 k
  rtpTimestamp := if k % 2 = 0 then 0 else 0xFFFFFFFF
  payloadType := kPayloadTypePcmu
  payload := []

/-- 320 such packets at once, and one more 20 ms later. -/
def swingingCalls : List Call :=
  (List.range 320).map (fun k => .push (swingPacket k) 0) ++ [.push (swingPacket 320) 160]

/-- The clock of the run never goes back, and yet its last conversion overflows: the estimate has come
within a sample of 2^32 when a distance of 2^32 + 159 lifts it above. -/
theorem depth_conversion_overflows :
    ((arrivals swingingCalls).map Prod.snd).IsChain (· ≤ ·) ∧
    ¬ DepthConverts .little (fun _ sample => sample) {} (Vector.replicate _ (Vector.replicate _ 0))
      swingingCalls := by
  refine ⟨by decide +kernel, fun h => ?_⟩
  obtain ⟨jb, hrun, _⟩ := h swingingCalls (List.prefix_refl _)
  obtain ⟨hbounded, _⟩ := (runChecked_eq_some_iff _ _ _ _ _ jb).mp hrun
  have hover : ¬ AverageBounded (distances (arrivals swingingCalls)) := by decide +kernel
  exact hover (hbounded swingingCalls (List.prefix_refl _))

end RtpStreamer
