import RtpStreamer.Jitter.Proofs.LatenessProofs

/-!
# The options do not interfere with the playout

Two buffers that differ only in their options are run on the same calls. They differ in what the
options control: the recorded histories, and the count of consecutive concealments, which a buffer
without fading does not keep. None of these is read by anything but the concealed frames and the
histories themselves, so the two buffers never differ in anything else.
-/

namespace RtpStreamer

variable {P : Platform}

/-- What the options control. -/
structure Reporting where
  options : Options
  consecutiveConcealments : Nat
  targetDepthHistoryMs : List Int
  latencySamplesMs : List U32

namespace JitterBuffer

/-- The buffer with other options and what they control replaced. -/
def withReporting (jb : JitterBuffer P) (r : Reporting) : JitterBuffer P :=
  { jb with
    options := r.options
    consecutiveConcealments := r.consecutiveConcealments
    estimate := { jb.estimate with targetDepthHistoryMs := r.targetDepthHistoryMs }
    latencySamplesMs := r.latencySamplesMs }

/-- What a buffer reports agrees with `r` as far as the options agree. -/
structure Reports (jb : JitterBuffer P) (r : Reporting) : Prop where
  fade : r.options.disablePlcFade = jb.options.disablePlcFade →
    r.consecutiveConcealments = jb.consecutiveConcealments
  stats : r.options.collectStats = jb.options.collectStats →
    r.targetDepthHistoryMs = jb.estimate.targetDepthHistoryMs ∧
      r.latencySamplesMs = jb.latencySamplesMs

/-- The second buffer is the first one with other options. -/
def SameButOptions (jb jb' : JitterBuffer P) : Prop :=
  ∃ r, jb' = jb.withReporting r ∧ jb.Reports r

/-! ## Push -/

/-- The estimate does not depend on the options, the recorded history apart. -/
theorem updateJitterEstimate_withHistory (options : Options) (est : JitterEstimate P)
    (history : List Int) (rtpTimestamp arrival : U32) (options' : Options) :
    ∃ history', updateJitterEstimate options' { est with targetDepthHistoryMs := history }
        rtpTimestamp arrival =
      { updateJitterEstimate options est rtpTimestamp arrival with
        targetDepthHistoryMs := history' } ∧
      (options'.collectStats = options.collectStats → history = est.targetDepthHistoryMs →
        history' = (updateJitterEstimate options est rtpTimestamp arrival).targetDepthHistoryMs) := by
  refine ⟨(updateJitterEstimate options' { est with targetDepthHistoryMs := history }
    rtpTimestamp arrival).targetDepthHistoryMs, ?_, ?_⟩
  · unfold updateJitterEstimate
    cases est.havePrevArrival <;> rfl
  · intro hoptions hhistory
    unfold updateJitterEstimate
    cases est.havePrevArrival with
    | true => simp only [if_true, hoptions, hhistory]
    | false => exact hhistory

theorem place_withReporting (jb : JitterBuffer P) (r : Reporting) (packet : Packet)
    (arrival : U32) :
    (jb.withReporting r).place packet arrival = (jb.place packet arrival).withReporting r := by
  have hidx : (jb.withReporting r).frameIndex packet.sequenceNumber =
      jb.frameIndex packet.sequenceNumber := rfl
  have hcur : (jb.withReporting r).cursor = jb.cursor := rfl
  have hholds : (jb.withReporting r).holds packet.sequenceNumber =
      jb.holds packet.sequenceNumber := rfl
  unfold place
  simp only [hidx, hcur, hholds]
  split_ifs <;> rfl

theorem SameButOptions.push {jb jb' : JitterBuffer P} (h : SameButOptions jb jb') (packet : Packet)
    (arrival : U32) : SameButOptions (jb.push packet arrival) (jb'.push packet arrival) := by
  obtain ⟨r, rfl, hreports⟩ := h
  obtain ⟨history, hest, hhistory⟩ := updateJitterEstimate_withHistory jb.options jb.estimate
    r.targetDepthHistoryMs packet.rtpTimestamp arrival r.options
  have hnote : (jb.withReporting r).noteArrival packet arrival =
      (jb.noteArrival packet arrival).withReporting { r with targetDepthHistoryMs := history } := by
    unfold noteArrival withReporting
    simp only [hest]
    rfl
  obtain ⟨slots, counts, hplace⟩ := (jb.noteArrival packet arrival).place_frame packet arrival
  refine ⟨{ r with targetDepthHistoryMs := history }, ?_, ?_⟩
  · unfold JitterBuffer.push
    rw [hnote, place_withReporting]
  · unfold JitterBuffer.push
    rw [hplace]
    exact ⟨hreports.fade, fun hstats =>
      ⟨hhistory hstats (hreports.stats hstats).1, (hreports.stats hstats).2⟩⟩

/-! ## Pull -/

theorem isDue_withReporting (jb : JitterBuffer P) (r : Reporting) (now : U32) :
    (jb.withReporting r).isDue now = jb.isDue now := rfl

theorem holds_withReporting (jb : JitterBuffer P) (r : Reporting) :
    (jb.withReporting r).holds (jb.withReporting r).cursorSequence = jb.holds jb.cursorSequence := rfl

theorem Reports.concealsSilence {jb : JitterBuffer P} {r : Reporting} (h : jb.Reports r)
    (hfade : r.options.disablePlcFade = jb.options.disablePlcFade) :
    (jb.withReporting r).concealsSilence = jb.concealsSilence := by
  show (r.options.disablePlcFade || !jb.haveLastRealFrame ||
    decide (r.consecutiveConcealments ≥ kMaxConsecutiveConcealments)) = _
  rw [hfade, h.fade hfade]
  rfl

/-- A pull from two buffers that differ in their options: both return false, or both play the packet of
the cursor, or both conceal. -/
theorem SameButOptions.pull {jb jb' : JitterBuffer P} (h : SameButOptions jb jb') (now : U32) :
    SameButOptions (jb.tryPullDueFrame now).2 (jb'.tryPullDueFrame now).2 := by
  obtain ⟨r, rfl, hreports⟩ := h
  rcases jb.tryPullDueFrame_cases now with ⟨hdue, hp⟩ | ⟨hdue, hh, hp⟩ | ⟨hdue, hh, hp⟩ <;> rw [hp]
  · rw [tryPullDueFrame_of_not_due ((isDue_withReporting jb r now).trans hdue)]
    exact ⟨r, rfl, hreports⟩
  · rw [tryPullDueFrame_of_holds ((isDue_withReporting jb r now).trans hdue)
      ((holds_withReporting jb r).trans hh)]
    -- a real frame sets the count of concealments to zero in both buffers
    refine ⟨{ r with
      consecutiveConcealments := 0
      latencySamplesMs := ((jb.withReporting r).afterReal now).latencySamplesMs }, rfl,
      fun _ => rfl, fun hstats => ?_⟩
    have hstats : r.options.collectStats = jb.options.collectStats := hstats
    obtain ⟨hhistory, hlatency⟩ := hreports.stats hstats
    refine ⟨hhistory, ?_⟩
    show (if r.options.collectStats then r.latencySamplesMs ++ _ else r.latencySamplesMs) =
      if jb.options.collectStats then jb.latencySamplesMs ++ _ else jb.latencySamplesMs
    rw [hstats, hlatency]
    rfl
  · rw [tryPullDueFrame_of_not_holds ((isDue_withReporting jb r now).trans hdue)
      ((holds_withReporting jb r).trans hh)]
    refine ⟨{ r with
      consecutiveConcealments := (jb.withReporting r).afterConcealed.consecutiveConcealments }, rfl,
      fun hfade => ?_, hreports.stats⟩
    have hfade : r.options.disablePlcFade = jb.options.disablePlcFade := hfade
    show (if (jb.withReporting r).concealsSilence then r.consecutiveConcealments
      else r.consecutiveConcealments + 1) = if jb.concealsSilence then jb.consecutiveConcealments
      else jb.consecutiveConcealments + 1
    rw [hreports.concealsSilence hfade, hreports.fade hfade]

theorem SameButOptions.next {jb jb' : JitterBuffer P} (h : SameButOptions jb jb') (call : Call) :
    SameButOptions (jb.next call) (jb'.next call) := by
  cases call with
  | push packet arrival => exact h.push packet arrival
  | pull now => exact h.pull now
  | markStreamEnded =>
    obtain ⟨r, rfl, hreports⟩ := h
    exact ⟨r, rfl, hreports.fade, hreports.stats⟩

theorem sameButOptions_run (options options' : Options)
    (junk : Vector (Vector U8 kSlotPayloadBytes) kCapacity) (calls : List Call) :
    SameButOptions ((jitterSystem P options junk).run calls)
      ((jitterSystem P options' junk).run calls) := by
  have h := DetSystem.simulation (M := jitterSystem P options junk)
    (N := jitterSystem P options' junk) (f := id) (R := fun jb jb' => SameButOptions (P := P) jb jb')
    ⟨⟨options', 0, [], []⟩, rfl, fun _ => rfl, fun _ => ⟨rfl, rfl⟩⟩
    (fun _ _ call h => SameButOptions.next h call) calls
  rwa [List.map_id] at h

/-! ## What the two buffers return -/

theorem options_withReporting (jb : JitterBuffer P) (r : Reporting) :
    (jb.withReporting r).options = r.options := rfl

/-- The frames returned differ only where both are concealed and the fade options differ. -/
theorem SameButOptions.returned {jb jb' : JitterBuffer P} (h : SameButOptions jb jb')
    (call : Call) :
    (jb'.returned call).isSome = (jb.returned call).isSome ∧
      jb'.playsReal call = jb.playsReal call ∧
      (jb.playsReal call = true ∨ jb'.options.disablePlcFade = jb.options.disablePlcFade →
        jb'.returned call = jb.returned call) := by
  obtain ⟨r, rfl, hreports⟩ := h
  cases call with
  | push packet arrival => exact ⟨rfl, rfl, fun _ => rfl⟩
  | markStreamEnded => exact ⟨rfl, rfl, fun _ => rfl⟩
  | pull now =>
    show ((jb.withReporting r).tryPullDueFrame now).1.isSome = (jb.tryPullDueFrame now).1.isSome ∧
      _ ∧ (_ → ((jb.withReporting r).tryPullDueFrame now).1 = (jb.tryPullDueFrame now).1)
    rcases jb.tryPullDueFrame_cases now with ⟨hdue, hp⟩ | ⟨hdue, hh, hp⟩ | ⟨hdue, hh, hp⟩ <;> rw [hp]
    · rw [tryPullDueFrame_of_not_due ((isDue_withReporting jb r now).trans hdue)]
      exact ⟨rfl, rfl, fun _ => rfl⟩
    · rw [tryPullDueFrame_of_holds ((isDue_withReporting jb r now).trans hdue)
        ((holds_withReporting jb r).trans hh)]
      exact ⟨rfl, rfl, fun _ => rfl⟩
    · rw [tryPullDueFrame_of_not_holds ((isDue_withReporting jb r now).trans hdue)
        ((holds_withReporting jb r).trans hh)]
      refine ⟨rfl, rfl, ?_⟩
      rintro (hreal | hfade)
      · have hreal : (jb.isDue now && jb.holds jb.cursorSequence) = true := hreal
        rw [hdue, hh] at hreal
        exact absurd hreal (by decide)
      · rw [options_withReporting] at hfade
        show some (if (jb.withReporting r).concealsSilence then silence
          else jb.lastRealFrame.map (P.fade (r.consecutiveConcealments + 1))) =
          some jb.concealedFrame
        rw [hreports.concealsSilence hfade, hreports.fade hfade]
        rfl

end JitterBuffer

open JitterBuffer

/-- **The options do not interfere.** Two buffers that differ only in their options agree, after any
calls, in all counters, in the target depth, in `finished`, and in what every further pull returns, the
content of concealed frames apart; with equal fade options they agree in these too, and with equal
statistics options in the recorded histories. -/
theorem option_noninterference (P : Platform) (options options' : Options)
    (junk : Vector (Vector U8 kSlotPayloadBytes) kCapacity) (calls : List Call) :
    let jb : JitterBuffer P := (jitterSystem P options junk).run calls
    let jb' : JitterBuffer P := (jitterSystem P options' junk).run calls
    jb'.counts = jb.counts ∧
    jb'.estimate.targetDepthMs = jb.estimate.targetDepthMs ∧
    jb'.finished = jb.finished ∧
    (∀ call, (jb'.returned call).isSome = (jb.returned call).isSome ∧
      jb'.playsReal call = jb.playsReal call ∧
      (jb.playsReal call = true → jb'.returned call = jb.returned call)) ∧
    (options'.disablePlcFade = options.disablePlcFade →
      ∀ call, jb'.returned call = jb.returned call) ∧
    (options'.collectStats = options.collectStats →
      jb'.estimate.targetDepthHistoryMs = jb.estimate.targetDepthHistoryMs ∧
        jb'.latencySamplesMs = jb.latencySamplesMs) := by
  intro jb jb'
  have hsame : SameButOptions jb jb' := sameButOptions_run options options' junk calls
  have hoptions : jb.options = options := run_options options junk calls
  have hoptions' : jb'.options = options' := run_options options' junk calls
  have hreturned := hsame.returned
  rw [hoptions, hoptions'] at hreturned
  obtain ⟨r, hr, hreports⟩ := hsame
  have hr' : r.options = options' := by
    rw [← hoptions', hr]
    rfl
  refine ⟨by rw [hr]; rfl, by rw [hr]; rfl, by rw [hr]; rfl, ?_, ?_, ?_⟩
  · intro call
    obtain ⟨hsome, hreal, hframe⟩ := hreturned call
    exact ⟨hsome, hreal, fun h => hframe (Or.inl h)⟩
  · intro hfade call
    obtain ⟨_, _, hframe⟩ := hreturned call
    exact hframe (Or.inr hfade)
  · intro hstats
    rw [hr]
    exact hreports.stats (by rw [hr', hoptions, hstats])

/-- Without the fade the frame of the missing packet 1 is silence; all else is as with the fade. Without
the statistics every frame is the same. -/
theorem option_noninterference_example :
    let P := exactPlatform .little fun _ sample => sample
    let junk := Vector.replicate kCapacity (Vector.replicate kSlotPayloadBytes 0)
    let calls : List Call :=
      [.push (silentPacket 0) 0, .push (silentPacket 2) 320, .pull 1760, .pull 1760, .markStreamEnded]
    let jb : JitterBuffer P := (jitterSystem P { collectStats := true } junk).run calls
    let jb' : JitterBuffer P :=
      (jitterSystem P { collectStats := true, disablePlcFade := true } junk).run calls
    jb'.counts = jb.counts ∧ jb.counts.concealed = 1 ∧
      jb'.returned (.pull 1760) = jb.returned (.pull 1760) ∧
      jb'.latencySamplesMs = jb.latencySamplesMs ∧
      ∀ call, JitterBuffer.returned ((jitterSystem P {} junk).run calls) call = jb.returned call := by
  intro P junk calls jb jb'
  obtain ⟨hcounts, _, _, hreturned, _, hstats⟩ :=
    option_noninterference P { collectStats := true }
      { collectStats := true, disablePlcFade := true } junk calls
  obtain ⟨_, _, hreal⟩ := hreturned (.pull 1760)
  obtain ⟨_, _, _, _, hfade, _⟩ := option_noninterference P { collectStats := true } {} junk calls
  exact ⟨hcounts, by decide +kernel, hreal (by decide +kernel), (hstats rfl).2, hfade rfl⟩

end RtpStreamer
