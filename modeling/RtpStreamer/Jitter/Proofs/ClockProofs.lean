import RtpStreamer.Jitter.Proofs.DrainProofs
import RtpStreamer.Jitter.Proofs.TimestampProofs
import RtpStreamer.Jitter.Proofs.SlotProofs

/-!
# The origin of the local clock

The clock enters the buffer in three places: as a 64-bit difference in the jitter estimate, as a wrapped
difference in the recorded latency, and in the comparison of the clock with the deadline. The latency
does not depend on the origin. The comparison is one of unsigned numbers, so it is turned around when
the origin carries one side past 2^32 and not the other.
-/

namespace RtpStreamer

/-- The call with its clock reading moved by `k`, modulo 2^32. -/
def Call.shiftClock (k : U32) : Call → Call
  | .push packet arrivalSamples => .push packet (arrivalSamples + k)
  | .pull nowSamples => .pull (nowSamples + k)
  | .markStreamEnded => .markStreamEnded

/-- Moving the arrivals by `k` does not change the distance of two packets in a row: both carry past 2^32
or neither does, or `D` is the half circle that the carry takes to its opposite. -/
def KeepsArrivalDistance (k : U32) (previous current : U32 × U32) : Prop :=
  (Carries k previous.2 ↔ Carries k current.2) ∨
  (¬ Carries k previous.2 ∧ Carries k current.2 ∧ interarrival previous current = 2 ^ 31) ∨
  (Carries k previous.2 ∧ ¬ Carries k current.2 ∧ interarrival previous current = -2 ^ 31)

theorem keepsArrivalDistance_iff (k : U32) (previous current : U32 × U32) :
    KeepsArrivalDistance k previous current ↔
      (interarrival (previous.1, previous.2 + k) (current.1, current.2 + k)).natAbs =
        (interarrival previous current).natAbs := by
  have h1 := previous.2.isLt
  have h2 := current.2.isLt
  have hk := k.isLt
  unfold KeepsArrivalDistance Carries interarrival
  simp only [BitVec.toNat_add]
  constructor <;> intro h <;> omega

/-- The comparison of two clock readings survives the shift exactly when both carry or neither does. -/
theorem shift_lt_iff (k now deadline : U32) :
    (now + k < deadline + k ↔ now < deadline) ↔ (Carries k now ↔ Carries k deadline) := by
  have h1 := now.isLt
  have h2 := deadline.isLt
  have hk := k.isLt
  unfold Carries
  rw [BitVec.lt_def, BitVec.lt_def, BitVec.toNat_add, BitVec.toNat_add]
  omega

/-- `update_jitter_estimate` takes `std::fabs` of the difference. -/
def Platform.IgnoresSign (P : Platform) : Prop :=
  ∀ (jitter : P.Double) (d d' : Int), d.natAbs = d'.natAbs →
    P.accumulate jitter d = P.accumulate jitter d'

theorem exactPlatform_ignoresSign (order : ByteOrder) (fade : Nat → I16 → I16) :
    (exactPlatform order fade).IgnoresSign :=
  fun _ _ _ h => JitterBuffer.accumulateExact_inj.mpr h

variable {P : Platform}

namespace JitterBuffer

/-- Whether a pull gets as far as comparing the clock with the deadline. -/
def AwaitsDeadline (jb : JitterBuffer P) : Prop :=
  jb.started = true ∧ jb.streamEnded = false ∧ jb.cursor ≤ jb.highestFrameIndexSeen

/-- The shift by `k` does not show in this call: a push keeps its distance from the packet before it, and
a pull that compares the clock with the deadline has both carried past 2^32, or neither. -/
def KeepsClock (k : U32) (jb : JitterBuffer P) : Call → Prop
  | .push packet arrival => jb.estimate.havePrevArrival = true →
    KeepsArrivalDistance k (jb.estimate.prevRtpTimestamp, jb.estimate.prevArrivalSamples)
      (packet.rtpTimestamp, arrival)
  | .pull now => jb.AwaitsDeadline → (Carries k now ↔ Carries k jb.deadline)
  | .markStreamEnded => True

/-! ## The two buffers side by side -/

/-- The slots of the second buffer have the same packets, stored `k` later. -/
def SlotsShifted (k : U32) (slots slots' : Vector Slot kCapacity) : Prop :=
  ∀ i, slots'.get i = { slots.get i with arrivalSamples := (slots'.get i).arrivalSamples } ∧
    ((slots.get i).occupied = true →
      (slots'.get i).arrivalSamples = (slots.get i).arrivalSamples + k)

/-- The buffer with other clock readings stored in it. -/
def withClock (jb : JitterBuffer P) (slots : Vector Slot kCapacity) (first previous : U32) :
    JitterBuffer P :=
  { jb with
    slots := slots
    firstArrivalSamples := first
    estimate := { jb.estimate with prevArrivalSamples := previous } }

/-- The second buffer is the first one with every clock reading it has stored moved by `k`. -/
def ClockShifted (k : U32) (jb jb' : JitterBuffer P) : Prop :=
  ∃ slots first previous, jb' = jb.withClock slots first previous ∧
    (jb.started = true → first = jb.firstArrivalSamples + k) ∧
    (jb.estimate.havePrevArrival = true → previous = jb.estimate.prevArrivalSamples + k) ∧
    SlotsShifted k jb.slots slots

theorem SlotsShifted.set {k : U32} {slots slots' : Vector Slot kCapacity}
    (h : SlotsShifted k slots slots') (i : Fin kCapacity) {slot slot' : Slot}
    (hslot : slot' = { slot with arrivalSamples := slot'.arrivalSamples })
    (harrival : slot.occupied = true → slot'.arrivalSamples = slot.arrivalSamples + k) :
    SlotsShifted k (setAt slots i slot) (setAt slots' i slot') := by
  intro j
  rw [get_setAt, get_setAt]
  by_cases hij : i = j
  · rw [if_pos hij, if_pos hij]
    exact ⟨hslot, harrival⟩
  · rw [if_neg hij, if_neg hij]
    exact h j

theorem SlotsShifted.holds {k : U32} {jb : JitterBuffer P} {slots : Vector Slot kCapacity}
    (h : SlotsShifted k jb.slots slots) (first previous : U32) (seq : U16) :
    (jb.withClock slots first previous).holds seq = jb.holds seq := by
  unfold JitterBuffer.holds
  show ((slots.get (slotIndex seq)).occupied && (slots.get (slotIndex seq)).sequenceNumber == seq) = _
  rw [(h (slotIndex seq)).1]

/-! ### Push -/

theorem updateJitterEstimate_shiftClock (hsign : P.IgnoresSign) (options : Options)
    (est : JitterEstimate P) (rtpTimestamp arrival k previous : U32)
    (h : est.havePrevArrival = true →
      (interarrival (est.prevRtpTimestamp, previous) (rtpTimestamp, arrival + k)).natAbs =
        (interarrival (est.prevRtpTimestamp, est.prevArrivalSamples)
          (rtpTimestamp, arrival)).natAbs) :
    updateJitterEstimate options { est with prevArrivalSamples := previous } rtpTimestamp
        (arrival + k) =
      { updateJitterEstimate options est rtpTimestamp arrival with
        prevArrivalSamples := arrival + k } := by
  unfold updateJitterEstimate
  cases hp : est.havePrevArrival with
  | false => rfl
  | true =>
    have hacc := hsign est.jitterEstimateSamples _ _ (h hp)
    unfold interarrival at hacc
    simp only [hacc, reduceIte]

/-- Placing the packet in the two buffers has the same outcome. -/
theorem place_withClock {k : U32} {jb : JitterBuffer P} {slots : Vector Slot kCapacity}
    (h : SlotsShifted k jb.slots slots) (packet : Packet) (first previous arrival : U32) :
    ∃ slots', (jb.withClock slots first previous).place packet (arrival + k) =
        (jb.place packet arrival).withClock slots' first previous ∧
      SlotsShifted k (jb.place packet arrival).slots slots' := by
  have hholds := h.holds first previous packet.sequenceNumber
  have hidx : (jb.withClock slots first previous).frameIndex packet.sequenceNumber =
      jb.frameIndex packet.sequenceNumber := rfl
  have hcur : (jb.withClock slots first previous).cursor = jb.cursor := rfl
  rcases jb.place_cases packet arrival with
    ⟨hpast, hp⟩ | ⟨hahead, hp⟩ | ⟨hlo, hhi, hh, hp⟩ | ⟨hlo, hhi, hh, hp⟩ <;> rw [hp]
  · rw [place_of_past (by rw [hidx, hcur]; exact hpast)]
    exact ⟨slots, rfl, h⟩
  · rw [place_of_ahead (by rw [hidx, hcur]; exact hahead)]
    exact ⟨slots, rfl, h⟩
  · rw [place_of_window (by rw [hidx, hcur]; exact hlo) (by rw [hidx, hcur]; exact hhi), hholds, hh,
      if_pos rfl]
    exact ⟨slots, rfl, h⟩
  · rw [place_of_window (by rw [hidx, hcur]; exact hlo) (by rw [hidx, hcur]; exact hhi), hholds, hh,
      if_neg Bool.false_ne_true]
    refine ⟨_, rfl, h.set (slotIndex packet.sequenceNumber) ?_ fun _ => rfl⟩
    show fillSlot (slots.get _) packet (arrival + k) =
      { fillSlot (jb.slots.get _) packet arrival with arrivalSamples := arrival + k }
    rw [(h (slotIndex packet.sequenceNumber)).1]
    rfl

theorem ClockShifted.push (hsign : P.IgnoresSign) {k : U32} {jb jb' : JitterBuffer P}
    (h : ClockShifted k jb jb') (packet : Packet) (arrival : U32)
    (hkeep : jb.KeepsClock k (.push packet arrival)) :
    ClockShifted k (jb.push packet arrival) (jb'.push packet (arrival + k)) := by
  obtain ⟨slots, first, previous, rfl, hfirst, hprevious, hslots⟩ := h
  have hdistance (hhave : jb.estimate.havePrevArrival = true) :
      (interarrival (jb.estimate.prevRtpTimestamp, previous)
        (packet.rtpTimestamp, arrival + k)).natAbs =
      (interarrival (jb.estimate.prevRtpTimestamp, jb.estimate.prevArrivalSamples)
        (packet.rtpTimestamp, arrival)).natAbs := by
    have hpair : KeepsArrivalDistance k
        (jb.estimate.prevRtpTimestamp, jb.estimate.prevArrivalSamples)
        (packet.rtpTimestamp, arrival) := hkeep hhave
    rw [keepsArrivalDistance_iff] at hpair
    rw [hprevious hhave]
    exact hpair
  have hnote : (jb.withClock slots first previous).noteArrival packet (arrival + k) =
      (jb.noteArrival packet arrival).withClock slots
        (if jb.started then first else arrival + k) (arrival + k) := by
    have hest := updateJitterEstimate_shiftClock hsign jb.options jb.estimate packet.rtpTimestamp
      arrival k previous hdistance
    unfold JitterBuffer.noteArrival withClock
    simp only [hest]
    rfl
  have hfirst' : (if jb.started then first else arrival + k) =
      (if jb.started then jb.firstArrivalSamples else arrival) + k := by
    cases hs : jb.started with
    | true => exact hfirst hs
    | false => rfl
  obtain ⟨slots', hplace, hslots'⟩ := place_withClock
    (show SlotsShifted k (jb.noteArrival packet arrival).slots slots from hslots) packet
    (if jb.started then first else arrival + k) (arrival + k) arrival
  obtain ⟨stored, counts, hframe⟩ := (jb.noteArrival packet arrival).place_frame packet arrival
  unfold JitterBuffer.push
  rw [hnote, hplace]
  refine ⟨slots', _, _, rfl, fun _ => ?_, fun _ => ?_, hslots'⟩
  · rw [hframe]
    exact hfirst'
  · rw [hframe]
    rfl

/-! ### Pull -/

theorem deadline_withClock (jb : JitterBuffer P) (slots : Vector Slot kCapacity) (k previous : U32) :
    (jb.withClock slots (jb.firstArrivalSamples + k) previous).deadline = jb.deadline + k := by
  have hcomm (first played depth : U32) : first + k + played + depth = first + played + depth + k := by
    ac_rfl
  exact hcomm _ _ _

/-- The pull falls due in the shifted buffer as it does in the other one. -/
theorem ClockShifted.isDue_iff_keeps {k : U32} {jb jb' : JitterBuffer P} (h : ClockShifted k jb jb')
    (now : U32) : jb'.isDue (now + k) = jb.isDue now ↔ jb.KeepsClock k (.pull now) := by
  obtain ⟨slots, first, previous, rfl, hfirst, _, _⟩ := h
  have hcur : (jb.withClock slots first previous).cursor = jb.cursor := rfl
  rw [Bool.eq_iff_iff, JitterBuffer.isDue_iff, JitterBuffer.isDue_iff]
  show (jb.started = true ∧ jb.cursor ≤ jb.highestFrameIndexSeen ∧ (jb.streamEnded = true ∨
    (jb.withClock slots first previous).deadline ≤ now + k) ↔ _) ↔ (jb.AwaitsDeadline → _)
  unfold AwaitsDeadline
  by_cases hawaits : jb.started = true ∧ jb.streamEnded = false ∧ jb.cursor ≤ jb.highestFrameIndexSeen
  · obtain ⟨hs, he, hc⟩ := hawaits
    have hshift := shift_lt_iff k now jb.deadline
    rw [hfirst hs, deadline_withClock, ← BitVec.not_lt, ← BitVec.not_lt]
    simp only [hs, he, hc, true_and, Bool.false_eq_true, false_or, not_iff_not, true_implies]
    exact hshift
  · refine iff_of_true ?_ fun h => absurd h hawaits
    constructor
    · rintro ⟨hs, hc, hd⟩
      cases he : jb.streamEnded with
      | true => exact ⟨hs, hc, Or.inl rfl⟩
      | false => exact absurd ⟨hs, he, hc⟩ hawaits
    · rintro ⟨hs, hc, hd⟩
      cases he : jb.streamEnded with
      | true => exact ⟨hs, hc, Or.inl rfl⟩
      | false => exact absurd ⟨hs, he, hc⟩ hawaits

/-- A pull from the two buffers, when it falls due in both or in neither: the same frame, and the same
latency, for the clock and the arrival have both moved by `k`. -/
theorem ClockShifted.pull {k : U32} {jb jb' : JitterBuffer P} (h : ClockShifted k jb jb')
    (now : U32) (hdue : jb'.isDue (now + k) = jb.isDue now) :
    (jb'.tryPullDueFrame (now + k)).1 = (jb.tryPullDueFrame now).1 ∧
      ClockShifted k (jb.tryPullDueFrame now).2 (jb'.tryPullDueFrame (now + k)).2 := by
  obtain ⟨slots, first, previous, rfl, hfirst, hprevious, hslots⟩ := h
  have hholds : (jb.withClock slots first previous).holds
      (jb.withClock slots first previous).cursorSequence = jb.holds jb.cursorSequence :=
    hslots.holds first previous jb.cursorSequence
  obtain ⟨hslot, harrival⟩ := hslots (slotIndex jb.cursorSequence)
  rcases jb.tryPullDueFrame_cases now with ⟨hd, hp⟩ | ⟨hd, hh, hp⟩ | ⟨hd, hh, hp⟩ <;> rw [hp]
  · rw [tryPullDueFrame_of_not_due (hdue.trans hd)]
    exact ⟨rfl, slots, first, previous, rfl, hfirst, hprevious, hslots⟩
  · rw [tryPullDueFrame_of_holds (hdue.trans hd) (hholds.trans hh)]
    have hframe : (jb.withClock slots first previous).realFrame = jb.realFrame := by
      show decodeSlot P.byteOrder (slots.get (slotIndex jb.cursorSequence)) = _
      rw [hslot]
      rfl
    have hlatency : now + k - (slots.get (slotIndex jb.cursorSequence)).arrivalSamples =
        now - (jb.slots.get (slotIndex jb.cursorSequence)).arrivalSamples := by
      rw [harrival (holds_iff.mp hh).1]
      bv_omega
    have hrecorded : ((jb.withClock slots first previous).afterReal (now + k)).latencySamplesMs =
        (jb.afterReal now).latencySamplesMs := by
      show (if jb.options.collectStats then jb.latencySamplesMs ++
        [(now + k - (slots.get (slotIndex jb.cursorSequence)).arrivalSamples) * 1000 / _]
        else jb.latencySamplesMs) = _
      rw [hlatency]
      rfl
    have hafter : (jb.withClock slots first previous).afterReal (now + k) =
        { (jb.afterReal now).withClock (setAt slots (slotIndex jb.cursorSequence)
            { slots.get (slotIndex jb.cursorSequence) with occupied := false }) first previous with
          latencySamplesMs :=
            ((jb.withClock slots first previous).afterReal (now + k)).latencySamplesMs
          lastRealFrame := (jb.withClock slots first previous).realFrame } := rfl
    rw [hafter, hrecorded, hframe]
    refine ⟨rfl, _, first, previous, rfl, hfirst, hprevious,
      hslots.set (slotIndex jb.cursorSequence) ?_ fun hocc => absurd hocc Bool.false_ne_true⟩
    rw [hslot]
  · rw [tryPullDueFrame_of_not_holds (hdue.trans hd) (hholds.trans hh)]
    exact ⟨rfl, slots, first, previous, rfl, hfirst, hprevious, hslots⟩

/-! ## Runs -/

/-- A call that keeps the clock returns the same and leaves the buffers side by side. -/
theorem ClockShifted.next (hsign : P.IgnoresSign) {k : U32} {jb jb' : JitterBuffer P}
    (h : ClockShifted k jb jb') (call : Call) (hkeep : jb.KeepsClock k call) :
    ClockShifted k (jb.next call) (jb'.next (call.shiftClock k)) ∧
      jb.returned call = jb'.returned (call.shiftClock k) := by
  cases call with
  | push packet arrival => exact ⟨h.push hsign packet arrival hkeep, rfl⟩
  | pull now =>
    obtain ⟨hsame, hnext⟩ := h.pull now ((h.isDue_iff_keeps now).mpr hkeep)
    exact ⟨hnext, hsame.symm⟩
  | markStreamEnded =>
    obtain ⟨slots, first, previous, rfl, hfirst, hprevious, hslots⟩ := h
    exact ⟨⟨slots, first, previous, rfl, hfirst, hprevious, hslots⟩, rfl⟩

/-- Every call of the run keeps the clock. -/
def RunKeepsClock (P : Platform) (options : Options)
    (junk : Vector (Vector U8 kSlotPayloadBytes) kCapacity) (k : U32) (calls : List Call) : Prop :=
  ∀ before call, before ++ [call] <+: calls →
    KeepsClock k ((jitterSystem P options junk).run before) call

theorem clockShifted_fresh (options : Options)
    (junk : Vector (Vector U8 kSlotPayloadBytes) kCapacity) (k : U32) :
    ClockShifted k (fresh P options junk) (fresh P options junk) := by
  refine ⟨(fresh P options junk).slots, 0, 0, rfl, fun h => absurd h Bool.false_ne_true,
    fun h => absurd h Bool.false_ne_true, fun i => ⟨rfl, fun hocc => ?_⟩⟩
  rw [fresh_not_occupied] at hocc
  exact absurd hocc Bool.false_ne_true

theorem clockShifted_run (hsign : P.IgnoresSign) (options : Options)
    (junk : Vector (Vector U8 kSlotPayloadBytes) kCapacity) (k : U32) {calls : List Call}
    (h : RunKeepsClock P options junk k calls) :
    ClockShifted k ((jitterSystem P options junk).run calls)
      ((jitterSystem P options junk).run (calls.map (Call.shiftClock k))) :=
  DetSystem.simulation_of_steps (M := jitterSystem P options junk)
    (N := jitterSystem P options junk) (f := Call.shiftClock k)
    (R := fun jb jb' => ClockShifted (P := P) k jb jb')
    (Q := fun jb call => KeepsClock (P := P) k jb call) (clockShifted_fresh options junk k)
    (fun _ _ call hok h => (ClockShifted.next hsign h call hok).1) calls h

theorem RunKeepsClock.initial {options : Options}
    {junk : Vector (Vector U8 kSlotPayloadBytes) kCapacity} {k : U32} {calls calls' : List Call}
    (h : RunKeepsClock P options junk k calls') (hinit : calls <+: calls') :
    RunKeepsClock P options junk k calls :=
  fun before call hb => h before call (hb.trans hinit)

/-! ## The results tell whether the clock was kept -/

variable {order : ByteOrder} {fade : Nat → I16 → I16}

/-- A call after which results and estimates still agree has kept the clock. -/
theorem ClockShifted.keepsClock {k : U32} {jb jb' : JitterBuffer (exactPlatform order fade)}
    (h : ClockShifted k jb jb') {call : Call}
    (hreturned : jb'.returned (call.shiftClock k) = jb.returned call)
    (hestimate : (jb'.next (call.shiftClock k)).estimate.jitterEstimateSamples =
      (jb.next call).estimate.jitterEstimateSamples) : jb.KeepsClock k call := by
  cases call with
  | push packet arrival =>
    intro hhave
    obtain ⟨slots, first, previous, rfl, _, hprevious, _⟩ := h
    have hbefore : jb.estimate.Remembers
        (some (jb.estimate.prevRtpTimestamp, jb.estimate.prevArrivalSamples)) := ⟨hhave, rfl, rfl⟩
    have hbefore' : (jb.withClock slots first previous).estimate.Remembers
        (some (jb.estimate.prevRtpTimestamp, jb.estimate.prevArrivalSamples + k)) :=
      ⟨hhave, rfl, hprevious hhave⟩
    have hpush := push_jitterEstimate jb packet arrival hbefore
    have hpush' := push_jitterEstimate (jb.withClock slots first previous) packet (arrival + k)
      hbefore'
    have hacc : accumulateExact jb.estimate.jitterEstimateSamples
        (interarrival (jb.estimate.prevRtpTimestamp, jb.estimate.prevArrivalSamples + k)
          (packet.rtpTimestamp, arrival + k)) =
        accumulateExact jb.estimate.jitterEstimateSamples
          (interarrival (jb.estimate.prevRtpTimestamp, jb.estimate.prevArrivalSamples)
            (packet.rtpTimestamp, arrival)) :=
      hpush'.symm.trans (hestimate.trans hpush)
    exact (keepsArrivalDistance_iff k _ _).mpr (accumulateExact_inj.mp hacc)
  | pull now =>
    refine (h.isDue_iff_keeps now).mp ?_
    have hsome := congrArg Option.isSome hreturned
    rw [← pull_isSome, ← pull_isSome]
    exact hsome
  | markStreamEnded => trivial

/-- If the results and the estimates of the two runs agree throughout, every call has kept the clock. -/
theorem runKeepsClock_of_same (options : Options)
    (junk : Vector (Vector U8 kSlotPayloadBytes) kCapacity) (k : U32) (calls : List Call)
    (htrace : (jitterSystem (exactPlatform order fade) options junk).trace
        (calls.map (Call.shiftClock k)) =
      (jitterSystem (exactPlatform order fade) options junk).trace calls)
    (hestimate : ∀ before, before <+: calls →
      (estimate ((jitterSystem (exactPlatform order fade) options junk).run
        (before.map (Call.shiftClock k)))).jitterEstimateSamples =
      (estimate ((jitterSystem (exactPlatform order fade) options junk).run
        before)).jitterEstimateSamples) :
    RunKeepsClock (exactPlatform order fade) options junk k calls := by
  induction calls using List.reverseRecOn with
  | nil =>
    intro before call hb
    exact absurd hb (by simp)
  | append_singleton calls call ih =>
    rw [List.map_append, List.map_singleton, DetSystem.trace_snoc, DetSystem.trace_snoc] at htrace
    obtain ⟨hbefore, hlast⟩ := List.append_inj' htrace (by simp only [List.length_singleton])
    have hcalls := ih hbefore fun before hb => hestimate before (hb.trans (List.prefix_append _ _))
    -- the buffers are side by side before the last call
    have hshifted := clockShifted_run (exactPlatform_ignoresSign order fade) options junk k hcalls
    have hafter := hestimate (calls ++ [call]) (List.prefix_refl _)
    rw [List.map_append, List.map_singleton, DetSystem.run_snoc, DetSystem.run_snoc] at hafter
    intro before call' hb
    rcases List.prefix_concat_iff.mp hb with heq | hb
    · obtain ⟨rfl, hcall⟩ := List.append_inj' heq rfl
      obtain rfl : call' = call := List.head_eq_of_cons_eq hcall
      exact hshifted.keepsClock (List.head_eq_of_cons_eq hlast) hafter
    · exact hcalls before call' hb

end JitterBuffer

open JitterBuffer

/-- **Independence from the clock origin.** A run whose calls keep the clock returns the same frames when
all clock readings are moved by `k`, and shows the same counters, depths, histories and latencies in
every state. With the exact estimate this is the only way in which the two runs can agree in what they
return and in their estimates throughout. -/
theorem clock_origin_independence (options : Options)
    (junk : Vector (Vector U8 kSlotPayloadBytes) kCapacity) (k : U32) (calls : List Call) :
    (∀ P : Platform, P.IgnoresSign → RunKeepsClock P options junk k calls →
      (jitterSystem P options junk).trace (calls.map (Call.shiftClock k)) =
          (jitterSystem P options junk).trace calls ∧
        ∀ before, before <+: calls →
          SameObservables (P := P) ((jitterSystem P options junk).run before)
            ((jitterSystem P options junk).run (before.map (Call.shiftClock k)))) ∧
    ∀ (order : ByteOrder) (fade : Nat → I16 → I16),
      let M := jitterSystem (exactPlatform order fade) options junk
      RunKeepsClock (exactPlatform order fade) options junk k calls ↔
        M.trace (calls.map (Call.shiftClock k)) = M.trace calls ∧
        ∀ before, before <+: calls →
          (estimate (M.run (before.map (Call.shiftClock k)))).jitterEstimateSamples =
            (estimate (M.run before)).jitterEstimateSamples := by
  have htrace (P : Platform) (hsign : P.IgnoresSign) (h : RunKeepsClock P options junk k calls) :
      (jitterSystem P options junk).trace (calls.map (Call.shiftClock k)) =
        (jitterSystem P options junk).trace calls :=
    (DetSystem.trace_eq_of_steps (M := jitterSystem P options junk)
      (N := jitterSystem P options junk) (f := Call.shiftClock k)
      (R := fun jb jb' => ClockShifted (P := P) k jb jb')
      (Q := fun jb call => KeepsClock (P := P) k jb call) (clockShifted_fresh options junk k)
      (fun _ _ call hok h => (ClockShifted.next hsign h call hok).1)
      (fun _ _ call hok h => (ClockShifted.next hsign h call hok).2) calls h).symm
  refine ⟨fun P hsign h => ⟨htrace P hsign h, ?_⟩, fun order fade => ⟨fun h => ⟨?_, ?_⟩, ?_⟩⟩
  · intro before hb
    obtain ⟨slots, first, previous, heq, _⟩ :=
      clockShifted_run hsign options junk k (h.initial hb)
    rw [heq]
    exact ⟨rfl, rfl, rfl, rfl, rfl⟩
  · exact htrace _ (exactPlatform_ignoresSign order fade) h
  · intro before hb
    obtain ⟨slots, first, previous, heq, _⟩ :=
      clockShifted_run (exactPlatform_ignoresSign order fade) options junk k (h.initial hb)
    rw [heq]
    rfl
  · rintro ⟨hsame, hestimate⟩
    exact runKeepsClock_of_same options junk k calls hsame hestimate

/-- A run that starts at clock 0 keeps its results when the clock starts at 2^31. -/
theorem clock_origin_independence_example :
    let calls : List Call := [.push (timedPacket 0 0) 0, .push (timedPacket 0 1) 160, .pull 800]
    let M := jitterSystem (exactPlatform .little fun _ sample => sample) {}
      (Vector.replicate _ (Vector.replicate _ 0))
    M.trace (calls.map (Call.shiftClock 0x80000000)) = M.trace calls := by
  intro calls M
  have hkeeps : RunKeepsClock (exactPlatform .little fun _ sample => sample) {}
      (Vector.replicate _ (Vector.replicate _ 0)) 0x80000000 calls := by
    intro before call hb
    obtain ⟨rest, hrest⟩ := hb
    rcases before with _ | ⟨first, _ | ⟨second, _ | ⟨third, before⟩⟩⟩ <;>
      simp only [List.nil_append, List.cons_append, calls, List.cons.injEq] at hrest
    · obtain ⟨rfl, _⟩ := hrest
      exact fun _ => Or.inl (by decide +kernel)
    · obtain ⟨rfl, rfl, _⟩ := hrest
      exact fun _ => Or.inl (by decide +kernel)
    · obtain ⟨rfl, rfl, rfl, _⟩ := hrest
      exact fun _ => by decide +kernel
    · exact absurd hrest.2.2.2 (by simp)
  exact ((clock_origin_independence {} (Vector.replicate _ (Vector.replicate _ 0)) 0x80000000 calls).1
    (exactPlatform .little fun _ sample => sample) (exactPlatform_ignoresSign _ _) hkeeps).1

/-- The first packet arrives 500 samples before the clock wraps, so its deadline of 800 samples later
wraps to 300, and a pull 100 samples after the arrival plays the frame; at any other time it is not due
yet. -/
theorem clock_origin_matters :
    let calls : List Call := [.push (timedPacket 0 0) 0, .pull 100]
    let M := jitterSystem (exactPlatform .little fun _ sample => sample) {}
      (Vector.replicate _ (Vector.replicate _ 0))
    calls.map (Call.shiftClock (-500)) = [.push (timedPacket 0 0) (-500), .pull (-400)] ∧
      (M.trace calls)[1]? = some none ∧
      ((M.trace (calls.map (Call.shiftClock (-500))))[1]?).map Option.isSome = some true := by
  refine ⟨rfl, ?_, ?_⟩ <;> decide +kernel

end RtpStreamer
