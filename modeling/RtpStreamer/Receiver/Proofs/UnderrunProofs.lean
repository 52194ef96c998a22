import RtpStreamer.Receiver.Proofs.ReportProofs

/-!
# When the ring refuses a frame

A push is refused only while the ring holds as many frames as it can, one less than its capacity. So as long
as the main thread is not that far behind, there is no underrun, and every frame that the jitter buffer
produces reaches the file.
-/

namespace RtpStreamer

variable {P : Platform} {options : Options}
  {junk : Vector (Vector U8 kSlotPayloadBytes) kCapacity} {capacity : Capacity}
  {config : ReceiverConfig} {initial : Vector Frame capacity.size}

namespace ReceiverProcess

/-- The samples of the frames that have entered the ring and that the main thread has not taken yet. -/
def backlog (process : ReceiverProcess P capacity) (events : List ProcessEvent) : Nat :=
  (samplesOf (framesAccepted events)).length - process.samples.length

/-- There was no underrun, and none is about to be counted. -/
def NoUnderrun (process : ReceiverProcess P capacity) : Prop :=
  process.underruns = 0 ∧ ∀ now, process.playout ≠ .countingUnderrun now

/-! ## One step -/

/-- What a finished call of the producer answers. -/
theorem producerStep_answer {ring ring' : SpscRing Frame capacity} {frame : Frame}
    {op : BoundedFifo.Op Frame} {answer : BoundedFifo.Answer Frame}
    (h : ring.producerStep frame = (ring', some (op, answer))) :
    ∃ item accepted, op = .push item ∧ answer = .pushed accepted := by
  unfold SpscRing.producerStep at h
  cases hpc : ring.producer with
  | idle =>
    rw [hpc] at h
    exact absurd (congrArg Prod.snd h) (by simp)
  | loadTail item head =>
    rw [hpc] at h
    dsimp only at h
    split_ifs at h
    · have hanswer := Option.some.inj (congrArg Prod.snd h)
      exact ⟨item, false, (congrArg Prod.fst hanswer).symm, (congrArg Prod.snd hanswer).symm⟩
    · exact absurd (congrArg Prod.snd h) (by simp)
  | writeSlot item head next =>
    rw [hpc] at h
    exact absurd (congrArg Prod.snd h) (by simp)
  | storeHead item next =>
    rw [hpc] at h
    have hanswer := Option.some.inj (congrArg Prod.snd h)
    exact ⟨item, true, (congrArg Prod.fst hanswer).symm, (congrArg Prod.snd hanswer).symm⟩

/-- The playout thread counts an underrun only behind a push that the ring has refused. -/
theorem NoUnderrun.playoutStep {process : ReceiverProcess P capacity} (h : process.NoUnderrun) :
    (process.playoutStep config).1.NoUnderrun ∨
      ∃ now frame item, process.playout = .pushing now frame ∧
        (process.ring.producerStep frame).2 = some (.push item, .pushed false) := by
  obtain ⟨hnone, hpc⟩ := h
  cases hplayout : process.playout with
  | waiting =>
    unfold NoUnderrun ReceiverProcess.playoutStep
    rw [hplayout]
    exact Or.inl ⟨hnone, fun _ => by simp⟩
  | pulling now =>
    left
    unfold NoUnderrun
    rw [playoutStep_pulling hplayout]
    cases (process.jbuf.tryPullDueFrame now).1 <;> exact ⟨hnone, fun _ => by simp⟩
  | pushing now frame =>
    rcases hring : process.ring.producerStep frame with ⟨ring, _ | ⟨op, answer⟩⟩
    · left
      unfold NoUnderrun
      rw [playoutStep_access hplayout hring]
      exact ⟨hnone, hpc⟩
    · obtain ⟨item, accepted, rfl, rfl⟩ := producerStep_answer hring
      cases accepted with
      | true =>
        left
        unfold NoUnderrun
        rw [playoutStep_pushed hplayout hring]
        exact ⟨hnone, fun _ => by simp⟩
      | false => exact Or.inr ⟨now, frame, item, rfl, congrArg Prod.snd hring⟩
  | countingUnderrun now => exact absurd hplayout (hpc now)
  | checking now =>
    unfold NoUnderrun ReceiverProcess.playoutStep
    rw [hplayout]
    exact Or.inl ⟨hnone, fun _ => by dsimp only; split_ifs <;> simp⟩
  | leaving =>
    unfold NoUnderrun ReceiverProcess.playoutStep
    rw [hplayout]
    exact Or.inl ⟨hnone, fun _ => by dsimp only; split_ifs <;> simp⟩
  | storingDone =>
    unfold NoUnderrun ReceiverProcess.playoutStep
    rw [hplayout]
    exact Or.inl ⟨hnone, fun _ => by simp⟩
  | exited =>
    unfold NoUnderrun ReceiverProcess.playoutStep
    rw [hplayout]
    exact Or.inl ⟨hnone, hpc⟩

theorem NoUnderrun.step {process : ReceiverProcess P capacity} (h : process.NoUnderrun) (move : ProcessMove) :
    (process.step config move).1.NoUnderrun ∨
      ∃ now frame item, process.playout = .pushing now frame ∧
        (process.ring.producerStep frame).2 = some (.push item, .pushed false) := by
  cases move with
  | receive read =>
    have hkeeps := receiveStep_keeps config process read
    refine Or.inl ⟨hkeeps.underruns.trans h.1, fun now => ?_⟩
    change (process.receiveStep config read).1.playout ≠ _
    rw [hkeeps.playout]
    exact h.2 now
  | playout => exact h.playoutStep
  | main =>
    have hkeeps := mainStep_keeps config process
    refine Or.inl ⟨hkeeps.underruns.trans h.1, fun now => ?_⟩
    change (process.mainStep config).playout ≠ _
    rw [hkeeps.playout]
    exact h.2 now

/-! ## Whole runs -/

variable (options junk config initial)

/-- What has entered the ring and has not been taken is in the ring. -/
theorem backlog_run (moves : List ProcessMove) :
    ∃ queue : BoundedFifo Frame (capacity.size - 1),
      SpscRing.Linked (ReceiverProcess.ring
        ((processSystem P config options junk capacity initial).run moves)) queue.items ∧
      backlog ((processSystem P config options junk capacity initial).run moves)
        ((processSystem P config options junk capacity initial).events moves) =
          kFrameSamples * queue.items.length := by
  obtain ⟨receiver, hrefines, haccounted⟩ :=
    accounted_process (P := P) options junk config initial moves
  refine ⟨receiver.ring, hrefines.linked, ?_⟩
  unfold backlog
  rw [haccounted.delivered, ← hrefines.samples, List.length_append, samplesOf_length, Nat.mul_comm,
    Nat.add_sub_cancel_left]

/-- A push is refused on a full ring. -/
theorem backlog_of_refused (moves : List ProcessMove) {frame item : Frame}
    (hrefused : (SpscRing.producerStep (ReceiverProcess.ring
      ((processSystem P config options junk capacity initial).run moves)) frame).2 =
        some (.push item, .pushed false)) :
    backlog ((processSystem P config options junk capacity initial).run moves)
      ((processSystem P config options junk capacity initial).events moves) =
        kFrameSamples * (capacity.size - 1) := by
  obtain ⟨queue, hlinked, hbacklog⟩ := backlog_run (P := P) options junk config initial moves
  rw [hbacklog, (hlinked.refused (.producer frame)).1 item hrefused]

theorem noUnderrun_run (moves : List ProcessMove)
    (hlag : ∀ before, before <+: moves →
      backlog ((processSystem P config options junk capacity initial).run before)
        ((processSystem P config options junk capacity initial).events before) <
          kFrameSamples * (capacity.size - 1)) :
    NoUnderrun ((processSystem P config options junk capacity initial).run moves) := by
  induction moves using List.reverseRecOn with
  | nil => exact ⟨rfl, fun _ => by simp [processSystem]⟩
  | append_singleton moves move ih =>
    have hinit : moves <+: moves ++ [move] := List.prefix_append _ _
    rw [DetSystem.run_snoc]
    rcases (ih fun before hb => hlag before (hb.trans hinit)).step move with hnone | hrefused
    · exact hnone
    · obtain ⟨now, frame, item, _, hanswer⟩ := hrefused
      have hfull := backlog_of_refused (P := P) options junk config initial moves hanswer
      have hlt := hlag moves hinit
      omega

/-- **Underruns.** As long as the frames in the ring are fewer than it can hold whenever a thread moves, the
ring refuses none. A process that exits has then written every frame that the jitter buffer has produced. -/
theorem no_underruns_without_lag (moves : List ProcessMove)
    (hlag : ∀ before, before <+: moves →
      backlog ((processSystem P config options junk capacity initial).run before)
        ((processSystem P config options junk capacity initial).events before) <
          kFrameSamples * (capacity.size - 1)) :
    let process : ReceiverProcess P capacity :=
      (processSystem P config options junk capacity initial).run moves
    let events := (processSystem P config options junk capacity initial).events moves
    process.underruns = 0 ∧
    (process.ending = .exited → process.file = some (Wav.write config.outputPath config.opens
      (BitVec.ofNat 32 kSampleRateHz) (samplesOf (producedFrames events)))) := by
  intro process events
  have hnone : process.underruns = 0 := (noUnderrun_run (P := P) options junk config initial moves hlag).1
  refine ⟨hnone, fun hexited => ?_⟩
  obtain ⟨_, hsamples, hfile, _, hcounted⟩ : Left config process events :=
    left_of_exited options junk config initial moves hexited
  have horder : InOrder process events := inOrder_run options junk config initial moves
  have hall : framesAccepted events = producedFrames events := by
    refine ((List.sublist_append_left _ _).trans horder).eq_of_length ?_
    omega
  rw [hfile]
  unfold fileOf
  rw [hsamples, hall]

/-! ## A session of one frame -/

/-- A ring of four slots is never full in it. -/
theorem no_underruns_without_lag_example :
    let system := shortSystem ⟨4, by decide, by decide⟩
    ReceiverProcess.underruns (system.run (shortSession twoSamples)) = 0 := by
  intro system
  refine (no_underruns_without_lag (P := exactPlatform .little fun _ sample => sample) {}
    (Vector.replicate _ (Vector.replicate _ 0)) shortConfig (silentRing ⟨4, by decide, by decide⟩)
    (shortSession twoSamples) fun before hinit => ?_).1
  have hall : ∀ k, k ≤ (shortSession twoSamples).length →
      backlog (system.run ((shortSession twoSamples).take k))
        (system.events ((shortSession twoSamples).take k)) < kFrameSamples * (4 - 1) := by
    decide +kernel
  rw [List.prefix_iff_eq_take.mp hinit]
  exact hall before.length hinit.length_le

end ReceiverProcess

end RtpStreamer
