import Mathlib.Algebra.Group.Nat.Defs
import RtpStreamer.Jitter.Exact
import RtpStreamer.Jitter.Proofs.TrackedProofs

/-!
# When a late packet is dropped

A push does not look at the deadline of its packet: it drops the packet when the cursor has passed its
frame. The cursor waits at the frontier however late it gets, so a packet that arrives long after its
deadline is still played if nothing behind it was received before. It is dropped once the playout has
caught up with the deadline, that is, once a pull past the deadline has returned false with the
frontier not short of the frame.
-/

namespace RtpStreamer

variable {P : Platform}

namespace JitterBuffer

/-! ## The target depth -/

theorem clampMs_bounds (target : Int) : 100 ≤ clampMs target ∧ clampMs target ≤ 200 := by
  have hmin : kMinTargetMs = 100 := rfl
  have hmax : kMaxTargetMs = 200 := rfl
  unfold clampMs
  split_ifs <;> omega

/-- The target depth stays between its clamps. -/
def DepthBounded (jb : JitterBuffer P) : Prop :=
  100 ≤ jb.estimate.targetDepthMs ∧ jb.estimate.targetDepthMs ≤ 200

theorem DepthBounded.update {est : JitterEstimate P} (h : 100 ≤ est.targetDepthMs ∧
    est.targetDepthMs ≤ 200) (options : Options) (rtpTimestamp arrival : U32) :
    100 ≤ (updateJitterEstimate options est rtpTimestamp arrival).targetDepthMs ∧
      (updateJitterEstimate options est rtpTimestamp arrival).targetDepthMs ≤ 200 := by
  unfold updateJitterEstimate
  cases est.havePrevArrival with
  | true => exact clampMs_bounds _
  | false => exact h

theorem DepthBounded.next {jb : JitterBuffer P} (h : jb.DepthBounded) (call : Call) :
    (jb.next call).DepthBounded := by
  cases call with
  | push packet arrival =>
    show (jb.push packet arrival).DepthBounded
    rw [DepthBounded, push_estimate]
    exact DepthBounded.update h _ _ _
  | pull now =>
    show (jb.tryPullDueFrame now).2.DepthBounded
    rcases jb.tryPullDueFrame_cases now with ⟨_, hp⟩ | ⟨_, _, hp⟩ | ⟨_, _, hp⟩ <;>
      rw [hp] <;> exact h
  | markStreamEnded => exact h

theorem depthBounded_run (options : Options)
    (junk : Vector (Vector U8 kSlotPayloadBytes) kCapacity) (calls : List Call) :
    DepthBounded ((jitterSystem P options junk).run calls) :=
  DetSystem.invariant (M := jitterSystem P options junk)
    ⟨le_refl kMinTargetMs, show kMinTargetMs ≤ 200 by decide⟩ (fun _ call h => h.next call) calls

/-- Within the first 2^31 samples the deadline does not wrap. -/
theorem deadline_eq {jb : JitterBuffer P} (hinv : jb.Inv) (hdepth : jb.DepthBounded)
    (hfirst : jb.firstArrivalSamples.toNat < 2 ^ 31) :
    jb.deadline.toNat = jb.firstArrivalSamples.toNat + jb.framesPlayed.toNat * 160 +
      jb.estimate.targetDepthMs.toNat * 8 := by
  obtain ⟨hlo, hhi⟩ := hdepth
  have hhigh := hinv.highest_le
  have hplayed := hinv.played_le
  have hdep : (BitVec.ofInt 32 jb.estimate.targetDepthMs).toNat =
      jb.estimate.targetDepthMs.toNat := by
    rw [BitVec.toNat_ofInt, Int.emod_eq_of_lt (by omega) (by omega)]
  have h8000 : (BitVec.ofNat 32 kSampleRateHz).toNat = 8000 := rfl
  have h160 : (BitVec.ofNat 32 kFrameSamples).toNat = 160 := rfl
  have h1000 : (1000 : U32).toNat = 1000 := rfl
  have htarget : jb.estimate.targetDepthMs.toNat * 8000 % 2 ^ 32 / 1000 =
      jb.estimate.targetDepthMs.toNat * 8 := by
    rw [Nat.mod_eq_of_lt (by omega)]
    omega
  unfold deadline
  rw [BitVec.toNat_add, BitVec.toNat_add, BitVec.toNat_udiv, BitVec.toNat_mul, BitVec.toNat_mul,
    hdep, h8000, h160, h1000, htarget,
    Nat.mod_eq_of_lt (a := jb.framesPlayed.toNat * 160) (by omega),
    Nat.mod_eq_of_lt (a := jb.firstArrivalSamples.toNat + _) (by omega),
    Nat.mod_eq_of_lt (by omega)]

/-- The deadline of the frame at the cursor, between the smallest depth and the largest. -/
theorem deadline_bounds {jb : JitterBuffer P} (hinv : jb.Inv) (hdepth : jb.DepthBounded)
    (hfirst : jb.firstArrivalSamples.toNat < 2 ^ 31) :
    jb.firstArrivalSamples.toNat + jb.framesPlayed.toNat * 160 + 800 ≤ jb.deadline.toNat ∧
      jb.deadline.toNat ≤
        jb.firstArrivalSamples.toNat + jb.framesPlayed.toNat * 160 + 1600 := by
  have hdl := deadline_eq hinv hdepth hfirst
  obtain ⟨hlo, hhi⟩ := hdepth
  omega

/-! ## The cursor only advances -/

theorem next_framesPlayed_le {jb : JitterBuffer P} (h : jb.Inv) (call : Call) :
    jb.framesPlayed.toNat ≤ (jb.next call).framesPlayed.toNat := by
  cases call with
  | push packet arrival =>
    show _ ≤ (jb.push packet arrival).framesPlayed.toNat
    rw [push_framesPlayed]
  | pull now =>
    have hstep (hdue : jb.isDue now = true) :
        jb.framesPlayed.toNat ≤ (jb.framesPlayed + 1).toNat := by
      rw [h.framesPlayed_succ (isDue_iff.mp hdue).2.1]
      exact Nat.le_succ _
    show _ ≤ (jb.tryPullDueFrame now).2.framesPlayed.toNat
    rcases jb.tryPullDueFrame_cases now with ⟨_, hp⟩ | ⟨hdue, _, hp⟩ | ⟨hdue, _, hp⟩ <;> rw [hp]
    · exact hstep hdue
    · exact hstep hdue
  | markStreamEnded => exact le_refl _

theorem run_framesPlayed_le (options : Options)
    (junk : Vector (Vector U8 kSlotPayloadBytes) kCapacity) (before after : List Call) :
    (framesPlayed ((jitterSystem P options junk).run before)).toNat ≤
      (framesPlayed ((jitterSystem P options junk).run (before ++ after))).toNat := by
  induction after using List.reverseRecOn with
  | nil => rw [List.append_nil]
  | append_singleton after call ih =>
    rw [← List.append_assoc, DetSystem.run_snoc]
    exact le_trans ih (next_framesPlayed_le (inv_run options junk _) call)

/-- A pull past the last deadline of frame `i` that returns false has moved the cursor past it. -/
theorem caught_up (jb : JitterBuffer P) (hinv : jb.Inv) (hdepth : jb.DepthBounded) {now : U32}
    {i : Int} (hfirst : jb.firstArrivalSamples.toNat < 2 ^ 31)
    (hnone : (jb.tryPullDueFrame now).1 = none) (hfrontier : i ≤ jb.highestFrameIndexSeen)
    (hpassed : jb.firstArrivalSamples.toNat + 160 * i + 1600 ≤ now.toNat) :
    i < jb.framesPlayed.toNat := by
  by_contra hlt
  have hstarted : jb.started = true := hinv.started_iff.mpr (by omega)
  obtain ⟨_, hdl⟩ := deadline_bounds hinv hdepth hfirst
  have hdue : jb.isDue now = true := by
    rw [isDue_iff, hinv.cursor_eq, BitVec.le_def]
    exact ⟨hstarted, by omega, Or.inr (by omega)⟩
  rcases jb.tryPullDueFrame_cases now with ⟨hno, _⟩ | ⟨_, _, hp⟩ | ⟨_, _, hp⟩
  · rw [hdue] at hno
    exact absurd hno (by decide)
  · rw [hp] at hnone
    exact absurd hnone (by simp)
  · rw [hp] at hnone
    exact absurd hnone (by simp)

/-- The rule by which a push drops a packet as late. -/
theorem push_lateDropped {jb : JitterBuffer P} (hinv : jb.Inv) (packet : Packet) (arrival : U32) :
    (jb.push packet arrival).counts.lateDropped = jb.counts.lateDropped +
      if (jb.noteArrival packet arrival).frameIndex packet.sequenceNumber <
            jb.framesPlayed.toNat ∨
          (jb.framesPlayed.toNat : Int) + 32 ≤
            (jb.noteArrival packet arrival).frameIndex packet.sequenceNumber
      then 1 else 0 := by
  have hcur := (hinv.noteArrival packet arrival).cursor_eq
  have hplayed : (jb.noteArrival packet arrival).framesPlayed = jb.framesPlayed := rfl
  rw [hplayed] at hcur
  unfold JitterBuffer.push
  rcases place_cases (jb.noteArrival packet arrival) packet arrival with
    ⟨hlt, hp⟩ | ⟨hge, hp⟩ | ⟨hlo, hhi, _, hp⟩ | ⟨hlo, hhi, _, hp⟩ <;> rw [hp]
  · rw [if_pos (by omega)]; rfl
  · rw [if_pos (by omega)]; rfl
  · rw [if_neg (by omega)]; rfl
  · rw [if_neg (by omega)]; rfl

end JitterBuffer

open JitterBuffer

/-- The packet, pushed after `calls`, is counted as late and output by no pull, whatever follows. -/
def DroppedLate (P : Platform) (options : Options)
    (junk : Vector (Vector U8 kSlotPayloadBytes) kCapacity) (calls : List Call) (packet : Packet)
    (arrival : U32) : Prop :=
  let jb : JitterBuffer P := (jitterSystem P options junk).run calls
  (jb.push packet arrival).counts.lateDropped = jb.counts.lateDropped + 1 ∧
    ∀ (after : List Call) (m : Nat),
      ¬ Outputs P options junk (calls ++ .push packet arrival :: after) m calls.length

/-- A packet that is not stored is output by no pull. -/
theorem not_outputs_of_not_stores {options : Options}
    {junk : Vector (Vector U8 kSlotPayloadBytes) kCapacity} {calls : List Call} {packet : Packet}
    {arrival : U32}
    (h : JitterBuffer.stores ((jitterSystem P options junk).run calls) packet arrival = false)
    (after : List Call) (m : Nat) :
    ¬ Outputs P options junk (calls ++ .push packet arrival :: after) m calls.length := by
  rintro ⟨out, hout⟩
  obtain ⟨packet', arrival', _, hcall, hstores, _, _⟩ := outputs_spec hout
  have hget : (calls ++ Call.push packet arrival :: after)[calls.length]? =
      some (.push packet arrival) := by simp
  rw [hget] at hcall
  obtain ⟨rfl, rfl⟩ := Call.push.inj (Option.some.inj hcall)
  rw [List.take_left' rfl, h] at hstores
  exact absurd hstores (by decide)

/-- A push drops its packet as late when the cursor has passed its frame, or when the frame is too far
ahead for the ring. -/
theorem droppedLate_iff (options : Options)
    (junk : Vector (Vector U8 kSlotPayloadBytes) kCapacity) (calls : List Call) (packet : Packet)
    (arrival : U32) :
    let jb : JitterBuffer P := (jitterSystem P options junk).run calls
    let i := (jb.noteArrival packet arrival).frameIndex packet.sequenceNumber
    DroppedLate P options junk calls packet arrival ↔
      i < jb.framesPlayed.toNat ∨ (jb.framesPlayed.toNat : Int) + 32 ≤ i := by
  intro jb i
  have hinv : jb.Inv := inv_run options junk calls
  have hcount := push_lateDropped hinv packet arrival
  constructor
  · rintro ⟨hlate, _⟩
    by_contra hlt
    rw [if_neg hlt, Nat.add_zero] at hcount
    have hlate : (jb.push packet arrival).counts.lateDropped = jb.counts.lateDropped + 1 := hlate
    omega
  · intro hlate
    rw [if_pos hlate] at hcount
    refine ⟨hcount, not_outputs_of_not_stores ?_⟩
    show jb.stores packet arrival = false
    rw [← Bool.not_eq_true, stores_iff, (hinv.noteArrival packet arrival).cursor_eq]
    rintro ⟨hlo, hhi, _⟩
    have hlo : (jb.framesPlayed.toNat : Int) ≤ i := hlo
    have hhi : i < jb.framesPlayed.toNat + 32 := hhi
    omega

/-- **Late packets.** Whether a packet is dropped as late is decided by the cursor. So a packet for
frame `i` is dropped, and never played, if it is pushed after a pull that returned false at or past
the largest deadline of frame `i`, when a packet for frame `i` or a later one had been received. -/
theorem late_packets_dropped (P : Platform) (options : Options)
    (junk : Vector (Vector U8 kSlotPayloadBytes) kCapacity) :
    (∀ (calls : List Call) (packet : Packet) (arrival : U32),
      let jb : JitterBuffer P := (jitterSystem P options junk).run calls
      let i := (jb.noteArrival packet arrival).frameIndex packet.sequenceNumber
      DroppedLate P options junk calls packet arrival ↔
        i < jb.framesPlayed.toNat ∨ (jb.framesPlayed.toNat : Int) + 32 ≤ i) ∧
    ∀ (before between : List Call) (now : U32) (packet : Packet) (arrival : U32),
      let jb : JitterBuffer P := (jitterSystem P options junk).run before
      let jb' : JitterBuffer P := (jitterSystem P options junk).run (before ++ .pull now :: between)
      let i := (jb'.noteArrival packet arrival).frameIndex packet.sequenceNumber
      jb.firstArrivalSamples.toNat < 2 ^ 31 → jb.returned (.pull now) = none →
      i ≤ jb.highestFrameIndexSeen →
      jb.firstArrivalSamples.toNat + 160 * i + 1600 ≤ now.toNat →
      DroppedLate P options junk (before ++ .pull now :: between) packet arrival := by
  refine ⟨droppedLate_iff options junk, ?_⟩
  intro before between now packet arrival jb jb' i hfirst hnone hfrontier hpassed
  have hpast := caught_up jb (inv_run options junk before)
    (depthBounded_run options junk before) hfirst hnone hfrontier hpassed
  have hmono := run_framesPlayed_le (P := P) options junk before (.pull now :: between)
  refine (droppedLate_iff options junk _ packet arrival).mpr (Or.inl ?_)
  show i < jb'.framesPlayed.toNat
  have hmono : jb.framesPlayed.toNat ≤ jb'.framesPlayed.toNat := hmono
  omega

/-- A packet of a stream that starts at sequence number and timestamp 0. -/
def silentPacket (k : Nat) : Packet where
  sequenceNumber := BitVec.ofNat 16 k
  rtpTimestamp := BitVec.ofNat 32 (160 * k)
  payloadType := kPayloadTypePcmu
  payload := []

/-- Frames 0, 1 and 2 are played by 1760 samples, although packet 1 is missing; when it arrives it is
dropped. -/
theorem late_packets_dropped_example :
    DroppedLate (exactPlatform .little fun _ sample => sample) {}
      (Vector.replicate _ (Vector.replicate _ 0))
      [.push (silentPacket 0) 0, .push (silentPacket 2) 320, .pull 1760, .pull 1760, .pull 1760,
        .pull 1760] (silentPacket 1) 2000 :=
  (late_packets_dropped (exactPlatform .little fun _ sample => sample) {}
    (Vector.replicate _ (Vector.replicate _ 0))).2
    [.push (silentPacket 0) 0, .push (silentPacket 2) 320, .pull 1760, .pull 1760, .pull 1760] []
    1760 (silentPacket 1) 2000 (by decide +kernel) (by decide +kernel) (by decide +kernel)
    (by decide +kernel)

/-- The clock reading that a call carries. -/
def Call.clock : Call → Option U32
  | .push _ arrivalSamples => some arrivalSamples
  | .pull nowSamples => some nowSamples
  | .markStreamEnded => none

/-- Packet 1 arrives 12 seconds after its deadline and is played all the same: the cursor has waited
for it at the frontier. -/
theorem late_packet_played :
    let calls : List Call :=
      [.push (silentPacket 0) 0, .pull 800, .push (silentPacket 1) 100000, .pull 100000]
    let P := exactPlatform .little fun _ sample => sample
    let junk := Vector.replicate kCapacity (Vector.replicate kSlotPayloadBytes 0)
    let jb : JitterBuffer P := (jitterSystem P {} junk).run calls
    calls.filterMap Call.clock = [0, 800, 100000, 100000] ∧
      jb.frameIndex (silentPacket 1).sequenceNumber = 1 ∧
      100000 > jb.firstArrivalSamples.toNat + 160 * 1 + 1600 ∧
      Outputs P {} junk calls 3 2 ∧ jb.counts.lateDropped = 0 := by
  intro calls P junk jb
  refine ⟨by decide, by decide +kernel, by decide +kernel, ?_, by decide +kernel⟩
  exact outputs_of_source (by decide +kernel)

end RtpStreamer
