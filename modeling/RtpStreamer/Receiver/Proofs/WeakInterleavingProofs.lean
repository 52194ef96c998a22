import RtpStreamer.Receiver.Proofs.WeakExitProofs

/-!
# The interleavings of the receiver

A process whose loads return the newest stores does what the process of `Process.lean` does, whose steps are
interleaved: the latter takes the mutex, calls the jitter buffer and gives the mutex back in one step, and the
former takes it for itself.
-/

namespace RtpStreamer

open ReleaseAcquire ReleaseAcquire.Memory

variable {P : Platform} {options : Options}
  {junk : Vector (Vector U8 kSlotPayloadBytes) kCapacity} {capacity : Capacity}
  {config : ReceiverConfig} {initial : Vector Frame capacity.size}

namespace WeakProcess

/-! ## The process in the same state -/

/-- A playout thread that waits for the mutex has woken up, which the other process has not seen yet. -/
def Woken (config : ReceiverConfig) (deadline : Timespec) (playout : WeakPlayoutPc capacity)
    (seen : Timespec) : Prop :=
  match playout with
  | .locking nowSamples => deadline = nextDeadline seen ∧ nowSamples = config.samplesAt deadline
  | .waiting | .pulling _ | .pushing _ _ _ | .countingUnderrun _ | .checking _ | .leaving | .unlocking _
  | .storingDone | .exited => deadline = seen

structure Mirrors (config : ReceiverConfig) (process : WeakProcess P capacity)
    (strong : ReceiverProcess P capacity) : Prop where
  ring : Newest process.memory process.playout.push process.main.pop strong.ring
  jbuf : process.memory.cells (.other .jbuf) = strong.jbuf
  lastActivity : process.lastActivity = strong.lastActivity
  woken : Woken config process.deadline process.playout strong.deadline
  playoutDone : process.playout.isExited = strong.playoutDone
  underruns : process.memory.latest (.stored (.other .underruns)) = strong.underruns
  malformed : process.malformed = strong.malformedDropped
  receive : process.receive.newest = strong.receive
  playout : process.playout.newest = strong.playout
  main : process.main.newest = strong.main
  ending : process.main.ending = strong.ending
  samples : process.samples = strong.samples
  file : process.file = strong.file
  report : process.report = strong.report

/-- What the other process does in the meantime, nothing or one step. -/
def Follows (config : ReceiverConfig) (result : WeakProcess P capacity × Option ProcessEvent)
    (strong : ReceiverProcess P capacity) : Prop :=
  (Mirrors config result.1 strong ∧ result.2 = none) ∨
    ∃ move, Mirrors config result.1 (strong.step config move).1 ∧ result.2 = (strong.step config move).2

section Steps

variable {process : WeakProcess P capacity} {strong : ReceiverProcess P capacity} {pushed : List Frame}
  {m' : ReceiverMemory P capacity}

/-- What only orders the accesses. -/
theorem Mirrors.ordered (h : Mirrors config process strong)
    (htouches : Touches process.memory m' fun _ => False) :
    Mirrors config { process with memory := m' } strong :=
  { h with
    ring := h.ring.frame htouches fun _ _ => id
    jbuf := (htouches.cells _ id).trans h.jbuf
    underruns := (htouches.latest _ id).trans h.underruns
    malformed := malformed_of_cells h.malformed (htouches.cells _ id) rfl }

theorem Mirrors.readBuffer (h : Mirrors config process strong) (t : ReceiverThread) :
    Mirrors config { process with memory := (process.memory.readCell t (.other .jbuf)).1 } strong :=
  { h with
    ring := h.ring.readOther t .jbuf
    underruns := (latest_readCell_stored ..).trans h.underruns }

theorem done_newest (hsync : process.InSync pushed) (t : ReceiverThread) {pick : ℕ}
    (hpick : process.memory.latest (.stored (.other .playoutDone)) ≤ pick) :
    (process.memory.loadAcquire t (.other .playoutDone) pick).2 = process.playout.isExited := by
  show (process.memory.history _ (process.memory.loaded t _ pick)).value = _
  rw [hsync.synced.ring.coherent.loaded_newest t hpick, hsync.synced.done.value _ le_rfl,
    hsync.synced.done.stored]
  show decide (0 < process.playout.isExited.toNat) = _
  cases process.playout.isExited with
  | false => rfl
  | true => rfl

/-- One thread at most is between locking and unlocking. -/
theorem InSync.playout_waits (hsync : process.InSync pushed) (hholds : process.receive.holdsMutex = true) :
    process.playout.newest.holdsMutex = false := by
  have hreceive := (hsync.synced.mutex.holder .receive).mpr hholds
  have hplayout : process.playout.holdsMutex = false := by
    by_contra hother
    have hholder := (hsync.synced.mutex.holder .playout).mpr (Bool.of_not_eq_false hother)
    rw [hreceive] at hholder
    exact absurd (Option.some.inj hholder) (by decide)
  cases hpc : process.playout with
  | waiting | locking | storingDone | exited => rfl
  | pulling | pushing | countingUnderrun | checking | leaving | unlocking =>
    rw [hpc] at hplayout
    exact Bool.noConfusion hplayout

theorem follows_receiveStep (h : Mirrors config process strong) (hsync : process.InSync pushed)
    (read : SocketRead) {pick : ℕ} (hpick : ∀ a, process.memory.latest (.stored a) ≤ pick) :
    Follows config (process.receiveStep config read pick) strong := by
  have hcoherent := h.ring.coherent
  have hdone := done_newest hsync .receive (hpick (.other .playoutDone))
  have hwaits := hsync.playout_waits
  obtain ⟨m, lastActivity, deadline, receive, playout, main, samples, file, report⟩ := process
  have hreceive := h.receive
  unfold WeakProcess.receiveStep
  cases receive with
  | receiving =>
    change ReceivePc.receiving = strong.receive at hreceive
    refine Or.inr ⟨.receive read, ?_⟩
    show Mirrors config _ (strong.receiveStep config read).1 ∧ _ = (strong.receiveStep config read).2
    unfold ReceiverProcess.receiveStep WeakProcess.handleRead
    rw [← hreceive]
    unfold ReceiverProcess.handleRead
    dsimp only
    rw [← h.lastActivity]
    cases read.datagram with
    | none =>
      dsimp only
      split_ifs
      · exact ⟨{ h with lastActivity := rfl, receive := rfl }, rfl⟩
      · exact ⟨{ h with lastActivity := rfl, receive := rfl }, rfl⟩
    | some datagram =>
      dsimp only
      cases parse P.byteOrder (datagram.take kMaxDatagramBytes) with
      | none =>
        exact ⟨{ h with
          lastActivity := rfl
          malformed := congrArg Nat.succ h.malformed
          receive := rfl }, rfl⟩
      | some parsed => exact ⟨{ h with lastActivity := rfl, receive := rfl }, rfl⟩
  | countingMalformed =>
    -- the other process has counted the datagram when it came
    refine Or.inl ⟨{ h with
      ring := (h.ring.readOther .receive .malformedDropped).writeOther .receive .malformedDropped _
      jbuf := (cells_writeCell_of_ne _ .receive _ (by simp)).trans h.jbuf
      underruns := ?_
      malformed := (cells_writeCell ..).trans h.malformed
      receive := hreceive }, rfl⟩
    dsimp only
    rw [latest_writeCell, bump_of_ne (by simp), latest_readCell_stored]
    exact h.underruns
  | locking reception =>
    dsimp only
    rcases lockBuffer_cases .receive m (WeakReceivePc.locking reception) (.calling reception) with
      hwaits | ⟨_, htakes⟩
    · rw [hwaits]
      exact Or.inl ⟨h, rfl⟩
    · rw [htakes]
      exact Or.inl ⟨{ h.ordered (hcoherent.touches_lock .receive .jbufMutex) with }, rfl⟩
  | calling reception =>
    have hfree : strong.playout.holdsMutex = false := by
      rw [← h.playout]
      exact hwaits rfl
    have hcalled : strong.receiveStep config read =
        ({ strong with jbuf := strong.jbuf.next reception.call, receive := .loadingDone },
          some (.called reception.call none)) := by
      unfold ReceiverProcess.receiveStep
      rw [← hreceive]
      exact if_neg (Bool.eq_false_iff.mp hfree)
    refine Or.inr ⟨.receive read, ?_⟩
    show Mirrors config _ (strong.receiveStep config read).1 ∧ _ = (strong.receiveStep config read).2
    rw [hcalled]
    exact ⟨{ h with
      ring := (h.ring.readOther .receive .jbuf).writeOther .receive .jbuf _
      jbuf := (jbuf_callBuffer ..).trans (congrArg (fun jbuf => JitterBuffer.next jbuf reception.call) h.jbuf)
      underruns := (latest_callBuffer_stored ..).trans h.underruns
      malformed := (malformed_callBuffer ..).trans h.malformed
      receive := rfl }, rfl⟩
  | unlocking =>
    exact Or.inl ⟨{ h.ordered (hcoherent.touches_unlock .receive .jbufMutex) with }, rfl⟩
  | loadingDone =>
    refine Or.inr ⟨.receive read, ?_⟩
    show Mirrors config _ (strong.receiveStep config read).1 ∧ _ = (strong.receiveStep config read).2
    unfold ReceiverProcess.receiveStep
    rw [← hreceive]
    dsimp only at hdone ⊢
    rw [hdone]
    have hordered := h.ordered (hcoherent.touches_loadAcquire .receive (.other .playoutDone) pick)
    have hsame := h.playoutDone
    dsimp only at hsame
    rw [hsame]
    cases hstrong : strong.playoutDone with
    | false => exact ⟨{ hordered with playoutDone := hsame.trans hstrong, receive := rfl }, rfl⟩
    | true => exact ⟨{ hordered with playoutDone := hsame.trans hstrong, receive := rfl }, rfl⟩
  | exited => exact Or.inl ⟨h, rfl⟩

theorem follows_playoutStep (h : Mirrors config process strong) (hsync : process.InSync pushed) {pick : ℕ}
    (hpick : ∀ a, process.memory.latest (.stored a) ≤ pick) :
    Follows config (process.playoutStep config pick) strong := by
  have hcoherent := h.ring.coherent
  obtain ⟨m, lastActivity, deadline, receive, playout, main, samples, file, report⟩ := process
  have hplayout := h.playout
  have hwoken := h.woken
  have hdone := h.playoutDone
  -- the step that the other process makes as well
  have hstep {process' : WeakProcess P capacity} {strong' : ReceiverProcess P capacity}
      {event : Option ProcessEvent} (hstrong : strong.playoutStep config = (strong', event))
      (hmirrors : Mirrors config process' strong') : Follows config (process', event) strong := by
    refine Or.inr ⟨.playout, ?_⟩
    show Mirrors config process' (strong.playoutStep config).1 ∧ event = (strong.playoutStep config).2
    rw [hstrong]
    exact ⟨hmirrors, rfl⟩
  unfold ReceiverProcess.playoutStep at hstep
  rw [← hplayout] at hstep
  unfold WeakProcess.playoutStep
  cases playout with
  | waiting =>
    exact Or.inl ⟨{ h with
      woken := ⟨congrArg nextDeadline hwoken, rfl⟩
      playout := hplayout }, rfl⟩
  | locking nowSamples =>
    obtain ⟨hdeadline, hnow⟩ := hwoken
    dsimp only
    rcases lockBuffer_cases .playout m (WeakPlayoutPc.locking nowSamples : WeakPlayoutPc capacity)
      (.pulling nowSamples) with hwaits | ⟨_, htakes⟩
    · rw [hwaits]
      exact Or.inl ⟨h, rfl⟩
    · rw [htakes]
      refine hstep rfl { h.ordered (hcoherent.touches_lock .playout .jbufMutex) with
        woken := hdeadline
        playoutDone := hdone
        playout := congrArg PlayoutPc.pulling (hnow.trans (congrArg config.samplesAt hdeadline)) }
  | pulling nowSamples =>
    have hjbuf : m.cells (.other .jbuf) = strong.jbuf := h.jbuf
    have hcalled : Mirrors config
        (⟨(callBuffer .playout m (.pull nowSamples)).1, lastActivity, deadline, receive, .leaving, main,
          samples, file, report⟩ : WeakProcess P capacity)
        { strong with jbuf := (strong.jbuf.tryPullDueFrame nowSamples).2, playout := .leaving } := { h with
      ring := (h.ring.readOther .playout .jbuf).writeOther .playout .jbuf _
      jbuf := (jbuf_callBuffer ..).trans
        (congrArg (fun jbuf => JitterBuffer.next jbuf (.pull nowSamples)) hjbuf)
      woken := hwoken
      playoutDone := hdone
      underruns := (latest_callBuffer_stored ..).trans h.underruns
      malformed := malformed_of_cells h.malformed (malformed_callBuffer ..) rfl
      playout := rfl }
    have hout : (callBuffer .playout m (.pull nowSamples)).2 = (strong.jbuf.tryPullDueFrame nowSamples).1 :=
      congrArg (fun jbuf => JitterBuffer.returned jbuf (.pull nowSamples)) hjbuf
    dsimp only at hstep ⊢
    rw [hout]
    refine hstep rfl ?_
    cases (strong.jbuf.tryPullDueFrame nowSamples).1 with
    | none => exact hcalled
    | some frame => exact { hcalled with playout := rfl }
  | pushing nowSamples frame push =>
    have hitem (item : Frame) (heq : push.item = some item) : item = frame :=
      (Option.some.inj (hsync.offered item heq)).symm
    obtain ⟨hring, hanswer⟩ := h.ring.pushStep .playout frame (hpick .head) (hpick .tail)
    have htouches : Touches m (RtpStreamer.pushStep .playout m push frame pick).1 OfRing :=
      (hsync.synced.ring.pushStep frame pick).touches
    dsimp only at hring hanswer ⊢
    change Newest (RtpStreamer.pushStep .playout m push frame pick).1
      (RtpStreamer.pushStep .playout m push frame pick).2.1 _ _ at hring
    change (RtpStreamer.pushStep .playout m push frame pick).2.2 = _ at hanswer
    have hpushing {m' : ReceiverMemory P capacity} (htouches : Touches m m' OfRing)
        {playout : WeakPlayoutPc capacity} {ring : SpscRing Frame capacity} {playout' : PlayoutPc}
        (hring : Newest m' playout.push main.pop ring)
        (hwoken : Woken config deadline playout strong.deadline)
        (hdone : playout.isExited = strong.playoutDone)
        (hplayout : playout.newest = playout') : Mirrors config
          (⟨m', lastActivity, deadline, receive, playout, main, samples, file, report⟩ :
            WeakProcess P capacity)
          { strong with ring := ring, playout := playout' } := { h with
      ring := hring
      jbuf := (htouches.cells (.other .jbuf) id).trans h.jbuf
      woken := hwoken
      playoutDone := hdone
      underruns := (htouches.latest (.stored (.other .underruns)) id).trans h.underruns
      malformed := malformed_of_cells h.malformed (htouches.cells (.other .malformedDropped) id) rfl
      playout := hplayout }
    rcases hstrong : strong.ring.producerStep frame with ⟨ring, answer⟩
    rw [hstrong] at hring hanswer
    simp only [WeakPlayoutPc.newest, hstrong] at hstep
    rcases pushStep_cases .playout m pick hitem with
      ⟨m', push', hresult, _⟩ | ⟨m', accepted, hresult⟩
    · rw [hresult] at hring hanswer htouches ⊢
      obtain rfl : none = answer := hanswer
      exact hstep rfl (hpushing htouches hring hwoken hdone rfl)
    · rw [hresult] at hring hanswer htouches ⊢
      obtain rfl : some (_, _) = answer := hanswer
      refine hstep rfl ?_
      cases accepted with
      | false => exact hpushing htouches hring hwoken hdone rfl
      | true => exact hpushing htouches hring hwoken hdone rfl
  | countingUnderrun nowSamples =>
    refine hstep rfl { h with
      ring := h.ring.frame (hcoherent.touches_modifyRelaxed .playout (.other .underruns) _) ?_
      underruns := ?_
      playout := rfl }
    · rintro place hplace rfl
      exact hplace
    · dsimp only
      rw [latest_modifyRelaxed, bump_self]
      exact congrArg Nat.succ h.underruns
  | checking nowSamples =>
    have hread := h.readBuffer .playout
    have hfinished : (bufferFinished .playout m).2 = strong.jbuf.finished :=
      congrArg JitterBuffer.finished h.jbuf
    dsimp only at hstep ⊢
    rw [hfinished]
    refine hstep rfl ?_
    cases strong.jbuf.finished with
    | false => exact { hread with playout := rfl }
    | true => exact { hread with playout := rfl }
  | leaving =>
    have hread := h.readBuffer .playout
    have hfinished : (bufferFinished .playout m).2 = strong.jbuf.finished :=
      congrArg JitterBuffer.finished h.jbuf
    dsimp only at hstep ⊢
    rw [hfinished]
    refine hstep rfl ?_
    cases strong.jbuf.finished with
    | false => exact { hread with playout := rfl }
    | true => exact { hread with playout := rfl }
  | unlocking done =>
    have hordered := h.ordered (hcoherent.touches_unlock .playout .jbufMutex)
    cases done with
    | false => exact Or.inl ⟨{ hordered with woken := hwoken }, rfl⟩
    | true => exact Or.inl ⟨{ hordered with woken := hwoken }, rfl⟩
  | storingDone =>
    refine hstep rfl { h with
      ring := h.ring.frame (hcoherent.touches_storeRelease .playout (.other .playoutDone) true) ?_
      playoutDone := rfl
      underruns := ?_
      playout := rfl }
    · rintro place hplace rfl
      exact hplace
    · dsimp only
      rw [latest_storeRelease, bump_of_ne (by simp)]
      exact h.underruns
  | exited => exact Or.inl ⟨h, rfl⟩

theorem mirrors_popStep (h : Mirrors config process strong) (hsync : process.InSync pushed)
    {pop : PopPc Frame capacity} (hpop : process.main.pop = pop) {pick : ℕ}
    (hpick : ∀ a, process.memory.latest (.stored a) ≤ pick)
    {during : PopPc Frame capacity → WeakMainPc P capacity} {onEmpty : WeakMainPc P capacity}
    (hlooping : strong.ending = .joiningReceive)
    (hduring : ∀ pop, (during pop).pop = pop ∧ (during pop).newest = strong.main ∧
      (during pop).ending = .joiningReceive)
    (hempty : onEmpty.pop = .idle ∧ onEmpty.ending = .joiningReceive) :
    Mirrors config (process.popStep pop pick during onEmpty) (strong.popStep onEmpty.newest) := by
  subst hpop
  obtain ⟨hring, hanswer⟩ := h.ring.popStep .main (hpick .head) (hpick .tail)
  have hquiet := hsync.popStep_quiet rfl pick during onEmpty
  have hpopping {m' : ReceiverMemory P capacity} {main : WeakMainPc P capacity}
      (hquiet : Quiet process { process with memory := m', main := main })
      {ring : SpscRing Frame capacity} {main' : MainPc}
      (hring : Newest m' process.playout.push main.pop ring) (hmain : main.newest = main')
      (hending : main.ending = .joiningReceive) : Mirrors config { process with memory := m', main := main }
        { strong with ring := ring, main := main' } := { h with
    ring := hring
    jbuf := hquiet.jbuf.trans h.jbuf
    underruns := hquiet.underruns.trans h.underruns
    malformed := hquiet.malformed.trans h.malformed
    main := hmain
    ending := hending.trans hlooping.symm }
  unfold WeakProcess.popStep at hquiet ⊢
  unfold ReceiverProcess.popStep
  rcases hstrong : strong.ring.consumerStep with ⟨ring, answer⟩
  rw [hstrong] at hring hanswer
  rcases popStep_cases .main process.memory process.main.pop pick with
    ⟨m', pop', hresult⟩ | ⟨m', out, hresult⟩
  · rw [hresult] at hring hanswer hquiet ⊢
    obtain rfl : none = answer := hanswer
    obtain ⟨hpop, hmain, hending⟩ := hduring pop'
    refine hpopping hquiet ?_ hmain hending
    rw [hpop]
    exact hring
  · rw [hresult] at hring hanswer hquiet ⊢
    obtain rfl : some (_, _) = answer := hanswer
    cases out with
    | none =>
      refine hpopping hquiet ?_ rfl hempty.2
      rw [hempty.1]
      exact hring
    | some frame =>
      have hpopped : Mirrors config { process with memory := m', main := .popping .idle }
          { strong with ring := ring, main := .popping } :=
        hpopping ⟨hquiet.jbuf, hquiet.malformed, hquiet.underruns⟩ hring rfl rfl
      exact { hpopped with samples := congrArg (· ++ frame.toList) h.samples }

theorem follows_mainStep (h : Mirrors config process strong) (hsync : process.InSync pushed)
    (hknows : EndingKnows config process) {pick : ℕ}
    (hpick : ∀ a, process.memory.latest (.stored a) ≤ pick) :
    Follows config (process.mainStep config pick, none) strong := by
  have hcoherent := h.ring.coherent
  have hmain := h.main
  have hending := h.ending
  -- the step that the other process makes as well
  have hstep {process' : WeakProcess P capacity} {strong' : ReceiverProcess P capacity}
      (hstrong : strong.mainStep config = strong') (hmirrors : Mirrors config process' strong') :
      Follows config (process', none) strong := by
    refine Or.inr ⟨.main, ?_, rfl⟩
    show Mirrors config process' (strong.mainStep config)
    rw [hstrong]
    exact hmirrors
  unfold ReceiverProcess.mainStep at hstep
  rw [← hmain] at hstep
  unfold WeakProcess.mainStep
  obtain ⟨m, lastActivity, deadline, receive, playout, main, samples, file, report⟩ := process
  cases main with
  | popping pop =>
    exact hstep rfl
      (mirrors_popStep h hsync rfl hpick hending.symm (fun pop => ⟨rfl, hmain, rfl⟩) ⟨rfl, rfl⟩)
  | lastPop pop =>
    exact hstep rfl
      (mirrors_popStep h hsync rfl hpick hending.symm (fun pop => ⟨rfl, hmain, rfl⟩) ⟨rfl, rfl⟩)
  | loadingDone =>
    have hordered := h.ordered (hcoherent.touches_loadAcquire .main (.other .playoutDone) pick)
    have hloaded := done_newest hsync .main (hpick (.other .playoutDone))
    have hdone := h.playoutDone
    dsimp only at hloaded hdone ⊢
    rw [hloaded, hdone]
    refine hstep rfl ?_
    cases hstrong : strong.playoutDone with
    | false => exact { hordered with playoutDone := hdone.trans hstrong, main := rfl, ending := hending }
    | true => exact { hordered with playoutDone := hdone.trans hstrong, main := rfl, ending := hending }
  | joiningReceive =>
    cases hpc : receive with
    | receiving | countingMalformed | locking | calling | unlocking | loadingDone =>
      subst hpc
      exact Or.inl ⟨h, rfl⟩
    | exited =>
      subst hpc
      have hended : strong.endingStep config = { strong with ending := .joiningPlayout } := by
        unfold ReceiverProcess.endingStep
        rw [← hending, ← h.receive]
        rfl
      have hordered := h.ordered (hcoherent.touches_join .main .receive)
      exact hstep hended { hordered with main := hmain, ending := rfl }
  | joiningPlayout =>
    cases hpc : playout with
    | waiting | locking | pulling | pushing | countingUnderrun | checking | leaving | unlocking | storingDone =>
      subst hpc
      exact Or.inl ⟨h, rfl⟩
    | exited =>
      subst hpc
      have hended : strong.endingStep config = { strong with ending := .writing } := by
        unfold ReceiverProcess.endingStep
        rw [← hending, ← h.playout]
        rfl
      have hordered := h.ordered (hcoherent.touches_join .main .playout)
      exact hstep hended { hordered with main := hmain, ending := rfl }
  | writing =>
    have hsamples : samples = strong.samples := h.samples
    subst hsamples
    refine hstep (by unfold ReceiverProcess.endingStep; rw [← hending]) ?_
    dsimp only
    cases Wav.write config.outputPath config.opens (BitVec.ofNat 32 kSampleRateHz) strong.samples with
    | ok bytes => exact { h with main := hmain, ending := rfl, file := rfl }
    | error message => exact { h with main := hmain, ending := rfl, file := rfl }
  | locking =>
    dsimp only
    rcases lockBuffer_cases .main m (.locking : WeakMainPc P capacity) .copying with hwaits | ⟨_, htakes⟩
    · rw [hwaits]
      exact Or.inl ⟨h, rfl⟩
    · rw [htakes]
      exact Or.inl ⟨{ h.ordered (hcoherent.touches_lock .main .jbufMutex) with }, rfl⟩
  | copying => exact Or.inl ⟨{ h.readBuffer .main with }, rfl⟩
  | unlocking jbuf =>
    exact Or.inl ⟨{ h.ordered (hcoherent.touches_unlock .main .jbufMutex) with }, rfl⟩
  | printing jbuf =>
    obtain ⟨hmalformed, hloaded⟩ := hsync.reads_counters rfl pick
    obtain ⟨_, _, hjbuf⟩ := hknows
    have hcopied : jbuf = strong.jbuf := hjbuf.trans h.jbuf
    have hsamples : samples = strong.samples := h.samples
    have hcounted := hmalformed.trans h.malformed
    have hstored := latest_readCell_stored m .main (.other .malformedDropped) (.other .underruns)
    have hunderruns := hloaded.trans (hstored.trans h.underruns)
    have hread := h.ring.readOther .main .malformedDropped
    have hended : strong.endingStep config =
        { strong with report := some strong.reportOf, ending := .exited } := by
      unfold ReceiverProcess.endingStep
      rw [← hending]
      rfl
    subst hcopied hsamples
    refine hstep hended { h with
      ring := hread.frame (hread.coherent.touches_loadAcquire .main (.other .underruns) pick) fun _ _ => id
      underruns := hstored.trans h.underruns
      main := hmain
      ending := rfl
      report := congrArg some ?_ }
    unfold ReceiverProcess.reportOf
    rw [← hcounted, ← hunderruns]
    rfl
  | exited => exact Or.inl ⟨h, rfl⟩

end Steps

/-- Every load returns the newest store. -/
def LoadsNewest (P : Platform) (config : ReceiverConfig) (options : Options)
    (junk : Vector (Vector U8 kSlotPayloadBytes) kCapacity) (capacity : Capacity)
    (initial : Vector Frame capacity.size) (moves : List (ProcessMove × ℕ)) : Prop :=
  ∀ before move, before ++ [move] <+: moves → ∀ a,
    (WeakProcess.memory ((weakProcessSystem P config options junk capacity initial).run before)).latest
      (.stored a) ≤ move.2

variable (options junk config initial)

theorem Follows.answers {process : WeakProcess P capacity} {strong : ReceiverProcess P capacity}
    {move : ProcessMove × ℕ} (h : Follows config (process.step config move) strong) :
    DetSystem.Answers (M := weakProcessSystem P config options junk capacity initial)
      (N := processSystem P config options junk capacity initial) some
      (fun process strong => Mirrors config process strong) process strong move := by
  obtain ⟨hsame, hnone⟩ | ⟨move', hsame, hevent⟩ := h
  · refine DetSystem.answers_stutter hsame ?_
    show (process.step config move).2.bind some = none
    rw [hnone]
    rfl
  · refine DetSystem.answers_step move' hsame ?_
    show (process.step config move).2.bind some = (strong.step config move').2
    rw [hevent]
    exact Option.bind_fun_some _

theorem mirrors_run (moves : List (ProcessMove × ℕ))
    (hnewest : LoadsNewest P config options junk capacity initial moves) :
    ∃ moves', Mirrors config ((weakProcessSystem P config options junk capacity initial).run moves)
        ((processSystem P config options junk capacity initial).run moves') ∧
      (weakProcessSystem P config options junk capacity initial).events moves =
        (processSystem P config options junk capacity initial).events moves' := by
  have hinitial : Mirrors config (weakProcessSystem P config options junk capacity initial).init
      (processSystem P config options junk capacity initial).init :=
    ⟨⟨Coherent.initial _ _, rfl, rfl, fun _ => rfl, rfl, rfl⟩, rfl, rfl, rfl, rfl, rfl, rfl, rfl, rfl, rfl, rfl,
      rfl, rfl, rfl⟩
  have hanswers : ∀ before move strong, before ++ [move] <+: moves →
      Mirrors config ((weakProcessSystem P config options junk capacity initial).run before) strong →
      DetSystem.Answers (M := weakProcessSystem P config options junk capacity initial)
        (N := processSystem P config options junk capacity initial) some
        (fun process strong => Mirrors config process strong)
        ((weakProcessSystem P config options junk capacity initial).run before) strong move := by
    rintro before ⟨move, pick⟩ strong hinit hmirrors
    have hpick := hnewest before (move, pick) hinit
    have hsync := inSync_run P config options junk initial before
    have hknows := (accounts_run (P := P) options junk config initial before).2
    refine Follows.answers options junk config initial ?_
    cases move with
    | receive read => exact follows_receiveStep hmirrors hsync read hpick
    | playout => exact follows_playoutStep hmirrors hsync hpick
    | main => exact follows_mainStep hmirrors hsync hknows hpick
  obtain ⟨moves', hmirrors, hevents⟩ := DetSystem.exists_run_of_answers_along hinitial moves hanswers
  exact ⟨moves', hmirrors, by rwa [List.filterMap_some] at hevents⟩

/-- **The interleavings.** A process whose loads return the newest stores does what a run of the process does
whose steps are interleaved: it makes the same events, drains the same samples, writes the same file and prints
the same report. -/
theorem newest_loads_interleave (moves : List (ProcessMove × ℕ))
    (hnewest : LoadsNewest P config options junk capacity initial moves) :
    let process : WeakProcess P capacity :=
      (weakProcessSystem P config options junk capacity initial).run moves
    ∃ moves', let strong : ReceiverProcess P capacity :=
        (processSystem P config options junk capacity initial).run moves'
      (weakProcessSystem P config options junk capacity initial).events moves =
        (processSystem P config options junk capacity initial).events moves' ∧
      process.memory.cells (.other .jbuf) = strong.jbuf ∧ process.samples = strong.samples ∧
      process.file = strong.file ∧ process.report = strong.report := by
  intro process
  obtain ⟨moves', hmirrors, hevents⟩ := mirrors_run options junk config initial moves hnewest
  exact ⟨moves', hevents, hmirrors.jbuf, hmirrors.samples, hmirrors.file, hmirrors.report⟩

/-- A datagram that is pushed, pulled and offered to the ring. -/
def newestSession : List (ProcessMove × ℕ) :=
  let threads : List ProcessMove :=
    List.replicate 5 (.receive { datagram := some ReceiverProcess.twoSamples, now := {} }) ++
      List.replicate 5 (.receive { datagram := none, now := { tvSec := 1 } }) ++ List.replicate 7 .playout
  threads.map fun move => (move, 1)

theorem loadsNewest_newestSession : LoadsNewest (exactPlatform .little fun _ sample => sample)
    ReceiverProcess.shortConfig {} (Vector.replicate _ (Vector.replicate _ 0)) ⟨2, by decide, by decide⟩
    (ReceiverProcess.silentRing _) newestSession := by
  have hall : ∀ k, k ≤ newestSession.length →
      let m := WeakProcess.memory ((staleSystem ⟨2, by decide, by decide⟩).run (newestSession.take k))
      m.latest (.stored .head) ≤ 1 ∧ m.latest (.stored .tail) ≤ 1 ∧
        m.latest (.stored (.other .playoutDone)) ≤ 1 ∧ m.latest (.stored (.other .underruns)) ≤ 1 := by
    decide +kernel
  intro before move hinit a
  have hbefore : before <+: newestSession := (List.prefix_append _ _).trans hinit
  have hpick : move.2 = 1 := by
    have hmem : move ∈ newestSession := hinit.subset (by simp)
    obtain ⟨_, _, rfl⟩ := List.mem_map.mp hmem
    rfl
  obtain ⟨hhead, htail, hdone, hunderruns⟩ := hall before.length hbefore.length_le
  rw [← List.prefix_iff_eq_take.mp hbefore] at hhead htail hdone hunderruns
  rw [hpick]
  match a with
  | .head => exact hhead
  | .tail => exact htail
  | .other .playoutDone => exact hdone
  | .other .underruns => exact hunderruns

theorem newest_loads_interleave_example : ∃ moves',
    (bufferCalls ((ReceiverProcess.shortSystem ⟨2, by decide, by decide⟩).events moves')).length = 3 := by
  obtain ⟨moves', hevents, _⟩ := newest_loads_interleave (P := exactPlatform .little fun _ sample => sample) {}
    (Vector.replicate _ (Vector.replicate _ 0)) ReceiverProcess.shortConfig
    (ReceiverProcess.silentRing ⟨2, by decide, by decide⟩) newestSession loadsNewest_newestSession
  have hcalls := congrArg (fun events => (bufferCalls events).length) hevents
  exact ⟨moves', hcalls.symm.trans (by decide +kernel)⟩

end WeakProcess

end RtpStreamer
