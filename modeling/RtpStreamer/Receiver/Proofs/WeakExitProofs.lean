import RtpStreamer.Receiver.Proofs.WeakReportProofs

/-!
# The exit of the receiver in release/acquire memory

The frames between the jitter buffer and the samples of the main thread, and what the main thread knows when it
ends: behind `playout_done` the ring is empty for good, and behind the joins and the mutex it reads the newest
values.
-/

namespace RtpStreamer

open BoundedFifo (pushedItems poppedItems)
open ReleaseAcquire ReleaseAcquire.Memory
open ReceiverProcess (CallsBuffer Received InOrder Left producedFrames producedFrames_append
  framesAccepted_append)

variable {P : Platform} {options : Options}
  {junk : Vector (Vector U8 kSlotPayloadBytes) kCapacity} {capacity : Capacity}
  {config : ReceiverConfig} {initial : Vector Frame capacity.size}

/-- The frame that has been pulled, and neither pushed nor counted as an underrun yet. -/
def WeakPlayoutPc.pending : WeakPlayoutPc capacity → ℕ
  | .pushing _ _ _ | .countingUnderrun _ => 1
  | .waiting | .locking _ | .pulling _ | .checking _ | .leaving | .unlocking _ | .storingDone | .exited => 0

theorem WeakReceivePc.eq_exited {pc : WeakReceivePc} (hexited : pc.isExited = true) : pc = .exited := by
  cases pc with
  | exited => rfl
  | receiving | countingMalformed | locking | calling | unlocking | loadingDone =>
    exact absurd hexited Bool.false_ne_true

theorem WeakPlayoutPc.eq_exited {pc : WeakPlayoutPc capacity} (hexited : pc.isExited = true) :
    pc = .exited := by
  cases pc with
  | exited => rfl
  | waiting | locking | pulling | pushing | countingUnderrun | checking | leaving | unlocking | storingDone =>
    exact absurd hexited Bool.false_ne_true

namespace WeakProcess

/-! ## The frames -/

section Steps

variable {process process' : WeakProcess P capacity} {events : List ProcessEvent}

/-- Every frame that was produced is in the samples, in the ring, counted as an underrun, or on its way. -/
structure Accounts (process : WeakProcess P capacity) (events : List ProcessEvent) : Prop where
  samples : process.samples =
    samplesOf ((framesAccepted events).take (process.memory.latest (.stored .tail)))
  inOrder : InOrder process.newest events
  counted : (framesAccepted events).length + process.memory.latest (.stored (.other .underruns)) +
    process.playout.pending = (producedFrames events).length

theorem Accounts.quiet (h : Accounts process events) {event : Option ProcessEvent}
    (haccepted : framesAccepted event.toList = []) (hproduced : producedFrames event.toList = [])
    (hsamples : process'.samples = process.samples)
    (htail : process'.memory.latest (.stored .tail) = process.memory.latest (.stored .tail))
    (hunderruns : process'.memory.latest (.stored (.other .underruns)) =
      process.memory.latest (.stored (.other .underruns)))
    (hoffered : process'.newest.playout.offered = process.newest.playout.offered)
    (hpending : process'.playout.pending = process.playout.pending) :
    Accounts process' (events ++ event.toList) where
  samples := by
    rw [framesAccepted_append, haccepted, List.append_nil, hsamples, htail]
    exact h.samples
  inOrder := h.inOrder.quiet haccepted hproduced hoffered
  counted := by
    rw [framesAccepted_append, producedFrames_append, haccepted, hproduced, List.append_nil, List.append_nil,
      hunderruns, hpending]
    exact h.counted

theorem latest_callBuffer_stored (t : ReceiverThread) (m : ReceiverMemory P capacity) (call : Call)
    (a : RingAtomic ReceiverAtomic) :
    (callBuffer t m call).1.latest (.stored a) = m.latest (.stored a) := by
  unfold callBuffer
  dsimp only
  rw [latest_writeCell, bump_of_ne (by simp), latest_readCell_stored]

/-- The receive thread stores to no atomic variable. -/
theorem receiveStep_keeps (config : ReceiverConfig) (process : WeakProcess P capacity) (read : SocketRead)
    (pick : ℕ) :
    (process.receiveStep config read pick).1.samples = process.samples ∧
      (process.receiveStep config read pick).1.playout = process.playout ∧
      (process.receiveStep config read pick).1.main = process.main ∧
      (process.receiveStep config read pick).1.report = process.report ∧
      (∀ a, (process.receiveStep config read pick).1.memory.latest (.stored a) =
        process.memory.latest (.stored a)) ∧
      producedFrames (process.receiveStep config read pick).2.toList = [] := by
  unfold WeakProcess.receiveStep
  cases process.receive with
  | receiving =>
    unfold WeakProcess.handleRead
    dsimp only
    split
    · split
      · exact ⟨rfl, rfl, rfl, rfl, fun _ => rfl, rfl⟩
      · exact ⟨rfl, rfl, rfl, rfl, fun _ => rfl, rfl⟩
    · split_ifs
      · exact ⟨rfl, rfl, rfl, rfl, fun _ => rfl, rfl⟩
      · exact ⟨rfl, rfl, rfl, rfl, fun _ => rfl, rfl⟩
  | countingMalformed =>
    refine ⟨rfl, rfl, rfl, rfl, fun a => ?_, rfl⟩
    dsimp only
    rw [latest_writeCell, bump_of_ne (by simp), latest_readCell_stored]
  | locking reception =>
    dsimp only
    rcases lockBuffer_cases .receive process.memory (WeakReceivePc.locking reception) (.calling reception) with
      hwaits | ⟨_, htakes⟩
    · rw [hwaits]
      exact ⟨rfl, rfl, rfl, rfl, fun _ => rfl, rfl⟩
    · rw [htakes]
      exact ⟨rfl, rfl, rfl, rfl, fun _ => rfl, rfl⟩
  | calling reception =>
    exact ⟨rfl, rfl, rfl, rfl, latest_callBuffer_stored .receive process.memory reception.call, rfl⟩
  | unlocking => exact ⟨rfl, rfl, rfl, rfl, fun _ => rfl, rfl⟩
  | loadingDone => exact ⟨rfl, rfl, rfl, rfl, fun _ => rfl, rfl⟩
  | exited => exact ⟨rfl, rfl, rfl, rfl, fun _ => rfl, rfl⟩

theorem Accounts.receiveStep (h : Accounts process events) (config : ReceiverConfig) (read : SocketRead)
    (pick : ℕ) : Accounts (process.receiveStep config read pick).1
      (events ++ (process.receiveStep config read pick).2.toList) := by
  obtain ⟨hsamples, hplayout, _, _, hstored, hproduced⟩ := receiveStep_keeps config process read pick
  exact h.quiet (receiveStep_accepted config process read pick) hproduced hsamples (hstored _) (hstored _)
    (congrArg (fun playout => PlayoutPc.offered (WeakPlayoutPc.newest playout)) hplayout)
    (congrArg WeakPlayoutPc.pending hplayout)

theorem Accounts.pulling (h : Accounts process events) (config : ReceiverConfig) {nowSamples : U32}
    (hpc : process.playout = .pulling nowSamples) (pick : ℕ) :
    Accounts (process.playoutStep config pick).1
      (events ++ (process.playoutStep config pick).2.toList) := by
  have hstored := latest_callBuffer_stored .playout process.memory (.pull nowSamples)
  have hoffered : process.newest.playout.offered = none := by
    show PlayoutPc.offered process.playout.newest = _
    rw [hpc]
    rfl
  have hpending : process.playout.pending = 0 := by
    rw [hpc]
    rfl
  have hframes : (framesAccepted events).Sublist (producedFrames events) := by
    have hinOrder := h.inOrder
    unfold InOrder at hinOrder
    rwa [hoffered, Option.toList_none, List.append_nil] at hinOrder
  have hcounted := h.counted
  rw [hpending] at hcounted
  unfold WeakProcess.playoutStep
  rw [hpc]
  dsimp only
  cases hout : (callBuffer .playout process.memory (.pull nowSamples)).2 with
  | none => exact h.quiet rfl rfl rfl (hstored _) (hstored _) hoffered.symm hpending.symm
  | some frame =>
    refine ⟨?_, ?_, ?_⟩
    · rw [framesAccepted_append]
      show _ = samplesOf ((framesAccepted events ++ []).take
        ((callBuffer .playout process.memory (.pull nowSamples)).1.latest (.stored .tail)))
      rw [List.append_nil, hstored]
      exact h.samples
    · unfold InOrder
      rw [framesAccepted_append, producedFrames_append]
      show (_ ++ [] ++ [frame]).Sublist (_ ++ [frame])
      rw [List.append_nil]
      exact hframes.append (List.Sublist.refl _)
    · rw [framesAccepted_append, producedFrames_append, List.length_append, List.length_append]
      dsimp only
      rw [hstored]
      show (framesAccepted events).length + 0 + _ + 1 = (producedFrames events).length + 1
      omega

theorem Accounts.pushing (h : Accounts process events) (hsync : process.InSync (framesAccepted events))
    (config : ReceiverConfig) {nowSamples : U32} {frame : Frame} {push : PushPc Frame capacity}
    (hpc : process.playout = .pushing nowSamples frame push) (pick : ℕ) :
    Accounts (process.playoutStep config pick).1
      (events ++ (process.playoutStep config pick).2.toList) := by
  have hpush : process.position.push = push := by
    show process.playout.push = push
    rw [hpc]
    rfl
  have hitem (item : Frame) (heq : push.item = some item) : item = frame := by
    have hoffered := hsync.offered item (by rw [hpc]; exact heq)
    rw [hpc] at hoffered
    exact (Option.some.inj hoffered).symm
  have hstep := hsync.synced.ring.pushStep frame pick
  rw [hpush] at hstep
  have hpopped := hstep.popped
  have hunderruns := hstep.touches.latest (.stored (.other .underruns)) id
  have hcounted := h.counted
  rw [hpc] at hcounted
  change _ + 1 = _ at hcounted
  have hinOrder := h.inOrder
  unfold InOrder at hinOrder
  have hoffered : process.newest.playout.offered = some frame := by
    show PlayoutPc.offered process.playout.newest = _
    rw [hpc]
    rfl
  rw [hoffered] at hinOrder
  unfold WeakProcess.playoutStep
  rw [hpc]
  dsimp only
  rcases pushStep_cases .playout process.memory pick hitem with
    ⟨m', push', hresult, _⟩ | ⟨m', accepted, hresult⟩
  · rw [hresult] at hpopped hunderruns ⊢
    change (_ ++ []).take (m'.latest _) = _ ++ [] at hpopped
    rw [List.append_nil, List.append_nil] at hpopped
    dsimp only
    rw [Option.toList_none, List.append_nil]
    refine ⟨h.samples.trans (congrArg samplesOf hpopped.symm), hinOrder, ?_⟩
    show _ + m'.latest _ + 1 = _
    rw [hunderruns]
    exact hcounted
  · rw [hresult] at hpopped hunderruns ⊢
    cases accepted with
    | true =>
      change (_ ++ [frame]).take (m'.latest _) = _ ++ [] at hpopped
      rw [List.append_nil] at hpopped
      refine ⟨?_, ?_, ?_⟩
      · rw [framesAccepted_append]
        exact h.samples.trans (congrArg samplesOf hpopped.symm)
      · unfold InOrder
        rw [framesAccepted_append, producedFrames_append]
        show (_ ++ [frame] ++ []).Sublist (_ ++ [])
        rwa [List.append_nil, List.append_nil]
      · rw [framesAccepted_append, producedFrames_append, List.length_append, List.length_append]
        show (framesAccepted events).length + 1 + m'.latest _ + 0 = (producedFrames events).length + 0
        rw [hunderruns]
        omega
    | false =>
      change (_ ++ []).take (m'.latest _) = _ ++ [] at hpopped
      rw [List.append_nil, List.append_nil] at hpopped
      refine ⟨?_, ?_, ?_⟩
      · rw [framesAccepted_append]
        show _ = samplesOf ((framesAccepted events ++ []).take (m'.latest (.stored .tail)))
        rw [List.append_nil]
        exact h.samples.trans (congrArg samplesOf hpopped.symm)
      · exact h.inOrder.dropped rfl rfl rfl
      · rw [framesAccepted_append, producedFrames_append, List.length_append, List.length_append]
        show (framesAccepted events).length + 0 + m'.latest _ + 1 = (producedFrames events).length + 0
        rw [hunderruns]
        omega

theorem Accounts.playoutStep (h : Accounts process events) (hsync : process.InSync (framesAccepted events))
    (config : ReceiverConfig) (pick : ℕ) :
    Accounts (process.playoutStep config pick).1
      (events ++ (process.playoutStep config pick).2.toList) := by
  -- what is left of a step without a frame
  have hquiet {process' : WeakProcess P capacity} (hidle : process.playout.newest.offered = none)
      (hnone : process.playout.pending = 0) (hsamples : process'.samples = process.samples)
      (htail : process'.memory.latest (.stored .tail) = process.memory.latest (.stored .tail))
      (hunderruns : process'.memory.latest (.stored (.other .underruns)) =
        process.memory.latest (.stored (.other .underruns)))
      (hidle' : process'.playout.newest.offered = none) (hnone' : process'.playout.pending = 0) :
      Accounts process' (events ++ []) :=
    h.quiet (show framesAccepted (none : Option ProcessEvent).toList = [] from rfl) rfl hsamples htail
      hunderruns (hidle'.trans hidle.symm) (hnone'.trans hnone.symm)
  cases hpc : process.playout with
  | pulling nowSamples => exact h.pulling config hpc pick
  | pushing nowSamples frame push => exact h.pushing hsync config hpc pick
  | countingUnderrun nowSamples =>
    have hcounted := h.counted
    rw [hpc] at hcounted
    change _ + 1 = _ at hcounted
    have hoffered : process.newest.playout.offered = none := by
      show PlayoutPc.offered process.playout.newest = _
      rw [hpc]
      rfl
    unfold WeakProcess.playoutStep
    rw [hpc]
    dsimp only
    rw [Option.toList_none, List.append_nil]
    refine ⟨?_, ?_, ?_⟩
    · dsimp only
      rw [latest_modifyRelaxed, bump_of_ne (by simp)]
      exact h.samples
    · have hinOrder := h.inOrder
      unfold InOrder at hinOrder ⊢
      rw [hoffered] at hinOrder
      exact hinOrder
    · dsimp only
      rw [latest_modifyRelaxed, bump_self]
      show _ + (_ + 1) + 0 = _
      omega
  | waiting =>
    unfold WeakProcess.playoutStep
    rw [hpc] at hquiet ⊢
    exact hquiet rfl rfl rfl rfl rfl rfl rfl
  | locking nowSamples =>
    unfold WeakProcess.playoutStep
    rw [hpc] at hquiet ⊢
    dsimp only
    rcases lockBuffer_cases .playout process.memory (.locking nowSamples : WeakPlayoutPc capacity)
      (.pulling nowSamples) with hwaits | ⟨_, htakes⟩
    · rw [hwaits]
      exact hquiet rfl rfl rfl rfl rfl rfl rfl
    · rw [htakes]
      exact hquiet rfl rfl rfl rfl rfl rfl rfl
  | checking nowSamples =>
    have hstored := latest_readCell_stored process.memory .playout (.other .jbuf)
    unfold WeakProcess.playoutStep
    rw [hpc] at hquiet ⊢
    dsimp only
    split_ifs
    · exact hquiet rfl rfl rfl (hstored _) (hstored _) rfl rfl
    · exact hquiet rfl rfl rfl (hstored _) (hstored _) rfl rfl
  | leaving =>
    have hstored := latest_readCell_stored process.memory .playout (.other .jbuf)
    unfold WeakProcess.playoutStep
    rw [hpc] at hquiet ⊢
    dsimp only
    cases (bufferFinished .playout process.memory).2 with
    | false => exact hquiet rfl rfl rfl (hstored _) (hstored _) rfl rfl
    | true => exact hquiet rfl rfl rfl (hstored _) (hstored _) rfl rfl
  | unlocking done =>
    unfold WeakProcess.playoutStep
    rw [hpc] at hquiet ⊢
    cases done with
    | false => exact hquiet rfl rfl rfl rfl rfl rfl rfl
    | true => exact hquiet rfl rfl rfl rfl rfl rfl rfl
  | storingDone =>
    unfold WeakProcess.playoutStep
    rw [hpc] at hquiet ⊢
    refine hquiet rfl rfl rfl ?_ ?_ rfl rfl
    · rw [latest_storeRelease, bump_of_ne (by simp)]
    · rw [latest_storeRelease, bump_of_ne (by simp)]
  | exited =>
    unfold WeakProcess.playoutStep
    rw [hpc]
    dsimp only
    rw [Option.toList_none, List.append_nil]
    exact h

theorem Accounts.popStep (h : Accounts process events) (hsync : process.InSync (framesAccepted events))
    {pop : PopPc Frame capacity} (hpop : process.main.pop = pop) (pick : ℕ)
    (during : PopPc Frame capacity → WeakMainPc P capacity) (onEmpty : WeakMainPc P capacity) :
    Accounts (process.popStep pop pick during onEmpty) events := by
  subst hpop
  have hstep := hsync.synced.ring.popStep pick
  change RingStep _ _ process.memory (RtpStreamer.popStep .main process.memory process.main.pop pick).1 _ _ _
    (RtpStreamer.popStep .main process.memory process.main.pop pick).2.2 at hstep
  have hpopped := hstep.popped
  have hunderruns := hstep.touches.latest (.stored (.other .underruns)) id
  unfold WeakProcess.popStep
  rcases popStep_cases .main process.memory process.main.pop pick with
    ⟨m', pop', hresult⟩ | ⟨m', out, hresult⟩
  · rw [hresult] at hpopped hunderruns ⊢
    change (_ ++ []).take (m'.latest _) = _ ++ [] at hpopped
    rw [List.append_nil, List.append_nil] at hpopped
    refine ⟨h.samples.trans (congrArg samplesOf hpopped.symm), h.inOrder, ?_⟩
    show _ + m'.latest _ + _ = _
    rw [hunderruns]
    exact h.counted
  · rw [hresult] at hpopped hunderruns ⊢
    cases out with
    | none =>
      change (_ ++ []).take (m'.latest _) = _ ++ [] at hpopped
      rw [List.append_nil, List.append_nil] at hpopped
      refine ⟨h.samples.trans (congrArg samplesOf hpopped.symm), h.inOrder, ?_⟩
      show _ + m'.latest _ + _ = _
      rw [hunderruns]
      exact h.counted
    | some frame =>
      change (_ ++ []).take (m'.latest _) = _ ++ [frame] at hpopped
      rw [List.append_nil] at hpopped
      refine ⟨?_, h.inOrder, ?_⟩
      · show process.samples ++ frame.toList = samplesOf ((framesAccepted events).take (m'.latest (.stored .tail)))
        rw [hpopped, samplesOf_append, samplesOf_singleton, ← h.samples]
      · show _ + m'.latest _ + _ = _
        rw [hunderruns]
        exact h.counted

theorem Accounts.mainStep (h : Accounts process events) (hsync : process.InSync (framesAccepted events))
    (config : ReceiverConfig) (pick : ℕ) : Accounts (process.mainStep config pick) events := by
  unfold WeakProcess.mainStep
  cases hpc : process.main with
  | popping pop => exact h.popStep hsync (by rw [hpc]; rfl) pick _ _
  | lastPop pop => exact h.popStep hsync (by rw [hpc]; rfl) pick _ _
  | loadingDone => exact ⟨h.samples, h.inOrder, h.counted⟩
  | joiningReceive =>
    dsimp only
    split
    · exact ⟨h.samples, h.inOrder, h.counted⟩
    · exact h
  | joiningPlayout =>
    dsimp only
    split
    · exact ⟨h.samples, h.inOrder, h.counted⟩
    · exact h
  | writing => exact ⟨h.samples, h.inOrder, h.counted⟩
  | locking =>
    dsimp only
    rcases lockBuffer_cases .main process.memory (.locking : WeakMainPc P capacity) .copying with
      hwaits | ⟨_, htakes⟩
    · rw [hwaits]
      exact ⟨h.samples, h.inOrder, h.counted⟩
    · rw [htakes]
      exact ⟨h.samples, h.inOrder, h.counted⟩
  | copying =>
    have hstored := latest_readCell_stored process.memory .main (.other .jbuf)
    exact ⟨by rw [hstored]; exact h.samples, h.inOrder, by rw [hstored]; exact h.counted⟩
  | unlocking jbuf => exact ⟨h.samples, h.inOrder, h.counted⟩
  | printing jbuf =>
    have hstored := latest_readCell_stored process.memory .main (.other .malformedDropped)
    refine ⟨?_, h.inOrder, ?_⟩
    · show _ = samplesOf ((framesAccepted events).take
        ((process.memory.readCell .main (.other .malformedDropped)).1.latest (.stored .tail)))
      rw [hstored]
      exact h.samples
    · show _ + (process.memory.readCell .main (.other .malformedDropped)).1.latest (.stored (.other .underruns)) +
        process.playout.pending = _
      rw [hstored]
      exact h.counted
  | exited => exact h

/-! ## The end of the main thread -/

/-- What the main thread has done behind its loop. -/
def EndingKnows (config : ReceiverConfig) (process : WeakProcess P capacity) : Prop :=
  match process.main with
  | .popping _ | .loadingDone | .lastPop _ | .joiningReceive | .joiningPlayout | .writing =>
    process.report = none
  | .locking | .copying => process.file = some (process.newest.fileOf config) ∧ config.opens = true
  | .unlocking jbuf | .printing jbuf =>
    process.file = some (process.newest.fileOf config) ∧ config.opens = true ∧
      jbuf = process.memory.cells (.other .jbuf)
  | .exited =>
    process.file = some (process.newest.fileOf config) ∧
      process.report = if config.opens then some process.newest.reportOf else none

/-- There is no report before the main thread has joined both threads. -/
theorem endingKnows_iff (hprogress : process.main.progress < 4) :
    EndingKnows config process ↔ process.report = none := by
  unfold EndingKnows
  cases hpc : process.main with
  | popping | loadingDone | lastPop | joiningReceive | joiningPlayout | writing => exact Iff.rfl
  | locking | copying | unlocking | printing =>
    rw [hpc] at hprogress
    exact absurd hprogress (Nat.lt_irrefl 4)
  | exited =>
    rw [hpc] at hprogress
    exact absurd hprogress (show ¬ 5 < 4 by decide)

theorem EndingKnows.receiveStep (h : EndingKnows config process) {pushed : List Frame}
    (hsync : process.InSync pushed) (read : SocketRead) (pick : ℕ) :
    EndingKnows config (process.receiveStep config read pick).1 := by
  obtain ⟨_, _, hmain, hreport, _, _⟩ := receiveStep_keeps config process read pick
  by_cases hprogress : process.main.progress < 4
  · rw [endingKnows_iff (by rwa [hmain]), hreport]
    exact (endingKnows_iff hprogress).mp h
  · -- the main thread has joined the receive thread
    have hjoined : 3 ≤ process.main.progress := by omega
    have hexited : process.receive.isExited = true := hsync.synced.joined hjoined
    unfold WeakProcess.receiveStep
    rw [WeakReceivePc.eq_exited hexited]
    exact h

theorem playoutStep_keeps (config : ReceiverConfig) (process : WeakProcess P capacity) (pick : ℕ) :
    (process.playoutStep config pick).1.main = process.main ∧
      (process.playoutStep config pick).1.report = process.report := by
  unfold WeakProcess.playoutStep
  cases process.playout with
  | pushing nowSamples frame push =>
    dsimp only
    split
    · exact ⟨rfl, rfl⟩
    · exact ⟨rfl, rfl⟩
  | waiting | locking | pulling | countingUnderrun | checking | leaving | unlocking | storingDone | exited =>
    exact ⟨rfl, rfl⟩

theorem EndingKnows.playoutStep (h : EndingKnows config process) {pushed : List Frame}
    (hsync : process.InSync pushed) (pick : ℕ) : EndingKnows config (process.playoutStep config pick).1 := by
  obtain ⟨hmain, hreport⟩ := playoutStep_keeps config process pick
  by_cases hprogress : process.main.progress < 4
  · rw [endingKnows_iff (by rwa [hmain]), hreport]
    exact (endingKnows_iff hprogress).mp h
  · -- the main thread has found the playout thread at its end
    have hended : 1 ≤ process.main.progress := by omega
    have hexited : process.playout.isExited = true := (hsync.synced.ended hended).1
    unfold WeakProcess.playoutStep
    rw [WeakPlayoutPc.eq_exited hexited]
    exact h

/-- Behind the joins the main thread reads the newest values of the counters. -/
theorem InSync.reads_counters {pushed : List Frame} (hsync : process.InSync pushed)
    (hprogress : process.main.progress = 4) (pick : ℕ) :
    process.memory.cells (.other .malformedDropped) = process.malformed ∧
      ((process.memory.readCell .main (.other .malformedDropped)).1.loadAcquire .main (.other .underruns)
        pick).2 =
        (process.memory.readCell .main (.other .malformedDropped)).1.latest (.stored (.other .underruns)) := by
  have hposition : process.position.progress = 4 := hprogress
  have hexited : process.receive = .exited :=
    WeakReceivePc.eq_exited (hsync.synced.joined (show 3 ≤ process.position.progress by omega))
  have hread := hsync.synced.readMalformed hposition
  have howner : underrunsOwner process.position.progress = .main := if_neg (by omega)
  have hunderruns := hread.underruns
  rw [howner] at hunderruns
  refine ⟨?_, hunderruns.load hread.ring.coherent pick⟩
  unfold WeakProcess.malformed
  rw [hexited]

theorem EndingKnows.mainStep (h : EndingKnows config process) {pushed : List Frame}
    (hsync : process.InSync pushed) (pick : ℕ) : EndingKnows config (process.mainStep config pick) := by
  have hlooping (hprogress : process.main.progress < 4) := (endingKnows_iff hprogress).mp h
  unfold WeakProcess.mainStep
  cases hpc : process.main with
  | popping pop =>
    rw [hpc] at hlooping
    unfold WeakProcess.popStep
    dsimp only
    split
    · exact hlooping (show 0 < 4 by decide)
    · exact hlooping (show 0 < 4 by decide)
    · exact hlooping (show 0 < 4 by decide)
  | lastPop pop =>
    rw [hpc] at hlooping
    unfold WeakProcess.popStep
    dsimp only
    split
    · exact hlooping (show 1 < 4 by decide)
    · exact hlooping (show 1 < 4 by decide)
    · exact hlooping (show 1 < 4 by decide)
  | loadingDone =>
    rw [hpc] at hlooping
    dsimp only
    split_ifs
    · exact hlooping (show 0 < 4 by decide)
    · exact hlooping (show 0 < 4 by decide)
  | joiningReceive =>
    rw [hpc] at hlooping
    dsimp only
    split
    · exact hlooping (show 2 < 4 by decide)
    · exact h
  | joiningPlayout =>
    rw [hpc] at hlooping
    dsimp only
    split
    · exact hlooping (show 3 < 4 by decide)
    · exact h
  | writing =>
    have hnone : process.report = none := by
      unfold EndingKnows at h
      rwa [hpc] at h
    unfold Wav.write
    cases hopens : config.opens with
    | true =>
      refine ⟨?_, hopens⟩
      show some _ = some (Wav.write config.outputPath config.opens _ process.samples)
      rw [hopens]
      rfl
    | false =>
      refine ⟨?_, ?_⟩
      · show some _ = some (Wav.write config.outputPath config.opens _ process.samples)
        rw [hopens]
        rfl
      · rw [hopens]
        exact hnone
  | locking =>
    have hwritten : process.file = some (process.newest.fileOf config) ∧ config.opens = true := by
      unfold EndingKnows at h
      rwa [hpc] at h
    dsimp only
    rcases lockBuffer_cases .main process.memory (.locking : WeakMainPc P capacity) .copying with
      hwaits | ⟨_, htakes⟩
    · rw [hwaits]
      exact hwritten
    · rw [htakes]
      exact hwritten
  | copying =>
    have hwritten : process.file = some (process.newest.fileOf config) ∧ config.opens = true := by
      unfold EndingKnows at h
      rwa [hpc] at h
    exact ⟨hwritten.1, hwritten.2, rfl⟩
  | unlocking jbuf =>
    unfold EndingKnows at h
    rw [hpc] at h
    exact h
  | printing jbuf =>
    unfold EndingKnows at h
    rw [hpc] at h
    obtain ⟨hfile, hopens, hjbuf⟩ := h
    obtain ⟨hmalformed, hloaded⟩ := hsync.reads_counters (by rw [hpc]; rfl) pick
    refine ⟨hfile, ?_⟩
    rw [if_pos hopens]
    refine congrArg some ?_
    unfold ReceiverProcess.reportOf
    -- the counters are those that were read; the rest is of the copied buffer
    congr 1
    · exact congrArg (fun jbuf : JitterBuffer P => jbuf.estimate.targetDepthMs) hjbuf
    · exact congrArg JitterBuffer.counts hjbuf
    · exact congrArg JitterBuffer.latencySamplesMs hjbuf
    · exact congrArg (fun jbuf : JitterBuffer P => jbuf.estimate.targetDepthHistoryMs) hjbuf
  | exited => exact h

end Steps

variable (options junk config initial)

theorem accounts_run (moves : List (ProcessMove × ℕ)) :
    Accounts ((weakProcessSystem P config options junk capacity initial).run moves)
        ((weakProcessSystem P config options junk capacity initial).events moves) ∧
      EndingKnows config ((weakProcessSystem P config options junk capacity initial).run moves) := by
  refine DetSystem.run_induction (M := weakProcessSystem P config options junk capacity initial)
    (P := fun moves process =>
      Accounts process ((weakProcessSystem P config options junk capacity initial).events moves) ∧
        EndingKnows config process) ⟨⟨rfl, List.Sublist.refl _, rfl⟩, rfl⟩ ?_ moves
  rintro moves ⟨move, pick⟩ ⟨haccounts, hknows⟩
  have hsync := inSync_run P config options junk initial moves
  rw [DetSystem.events_snoc]
  cases move with
  | receive read => exact ⟨haccounts.receiveStep config read pick, hknows.receiveStep hsync read pick⟩
  | playout => exact ⟨haccounts.playoutStep hsync config pick, hknows.playoutStep hsync pick⟩
  | main =>
    refine ⟨?_, hknows.mainStep hsync pick⟩
    show Accounts _ (_ ++ [])
    rw [List.append_nil]
    exact haccounts.mainStep hsync config pick

/-- What a process leaves behind that has exited: the newest values are those that the main thread has seen. -/
theorem left_of_exited (moves : List (ProcessMove × ℕ))
    (hexited : WeakProcess.main ((weakProcessSystem P config options junk capacity initial).run moves) =
      .exited) :
    Left config (newest ((weakProcessSystem P config options junk capacity initial).run moves))
      ((weakProcessSystem P config options junk capacity initial).events moves) := by
  obtain ⟨haccounts, hknows⟩ := accounts_run (P := P) options junk config initial moves
  have hsync := inSync_run P config options junk initial moves
  set process : WeakProcess P capacity := (weakProcessSystem P config options junk capacity initial).run moves
  set events := (weakProcessSystem P config options junk capacity initial).events moves
  have hprogress : process.position.progress = 5 := by
    show process.main.progress = 5
    rw [hexited]
    rfl
  have hreceive : process.receive = .exited :=
    WeakReceivePc.eq_exited (hsync.synced.joined (show 3 ≤ process.position.progress by omega))
  have hplayout : process.playout = .exited :=
    WeakPlayoutPc.eq_exited (hsync.synced.ended (show 1 ≤ process.position.progress by omega)).1
  have hdrained := hsync.synced.drained (by omega)
  unfold EndingKnows at hknows
  rw [hexited] at hknows
  have hmain : process.newest.main = .exited := by
    show process.main.newest = _
    rw [hexited]
    rfl
  have hall : (framesAccepted events).length = process.memory.latest (.stored .tail) :=
    hsync.synced.ring.length.trans hdrained.symm
  refine ⟨⟨hmain, congrArg WeakReceivePc.newest hreceive, congrArg WeakPlayoutPc.newest hplayout⟩, ?_,
    hknows.1, hknows.2, ?_⟩
  · have hsamples := haccounts.samples
    rwa [← hall, List.take_length] at hsamples
  · have hcounted := haccounts.counted
    rwa [hplayout] at hcounted

/-- **The exit in release/acquire memory.** Loads that return old values lose nothing: the file holds the frames
that entered the ring, and the report accounts for every frame and every datagram. -/
theorem stale_loads_lose_nothing (moves : List (ProcessMove × ℕ))
    (hexited : WeakProcess.main ((weakProcessSystem P config options junk capacity initial).run moves) =
      .exited) :
    let process : WeakProcess P capacity :=
      (weakProcessSystem P config options junk capacity initial).run moves
    let events := (weakProcessSystem P config options junk capacity initial).events moves
    let real := realFramesPlayed P options junk ((bufferCalls events).map Prod.fst)
    process.file = some (Wav.write config.outputPath config.opens (BitVec.ofNat 32 kSampleRateHz)
      (samplesOf (framesAccepted events))) ∧
    (framesAccepted events).Sublist (producedFrames events) ∧
    (config.opens = true → ∃ report, process.report = some report ∧
      (framesAccepted events).length + report.underruns = (producedFrames events).length ∧
      report.numSamples + kFrameSamples * report.underruns =
        kFrameSamples * (real + report.counts.lost) ∧
      report.counts.concealed = report.counts.lost ∧
      report.counts.received + report.malformedDropped = (receivedDatagrams events).length ∧
      report.counts.received = report.counts.lateDropped + report.counts.duplicate + real +
        JitterBuffer.occupiedSlots (process.memory.cells (.other .jbuf))) := by
  intro process events real
  obtain ⟨_, ⟨hlegal, hjbuf⟩, hreceived⟩ := books_run (P := P) options junk config initial moves
  have hinOrder := (accounts_run (P := P) options junk config initial moves).1.inOrder
  exact (left_of_exited options junk config initial moves hexited).accounts options junk config hlegal hjbuf
    hreceived hinOrder

theorem main_of_progress {pc : WeakMainPc P capacity} (hprogress : pc.progress = 5) : pc = .exited := by
  cases pc with
  | exited => rfl
  | popping | loadingDone | lastPop | joiningReceive | joiningPlayout | writing | locking | copying | unlocking
  | printing => exact absurd hprogress (by simp [WeakMainPc.progress])

/-- The session of one datagram. The main thread first looks at old values, of an empty ring and of a playout
thread that still runs. -/
def staleSession (datagram : List U8) : List (ProcessMove × ℕ) :=
  let threads : List ProcessMove :=
    List.replicate 5 (.receive { datagram := some datagram, now := {} }) ++
      List.replicate 5 (.receive { datagram := none, now := { tvSec := 1 } }) ++
      List.replicate 13 .playout ++ List.replicate 2 (.receive { datagram := none, now := {} })
  threads.map (fun move => (move, 9)) ++ List.replicate 6 (.main, 0) ++ List.replicate 20 (.main, 9)

def staleSystem (capacity : Capacity) : DetSystem (ProcessMove × ℕ) (Option ProcessEvent) :=
  weakProcessSystem (exactPlatform .little fun _ sample => sample) ReceiverProcess.shortConfig {}
    (Vector.replicate _ (Vector.replicate _ 0)) capacity (ReceiverProcess.silentRing capacity)

theorem stale_loads_lose_nothing_example :
    let system := staleSystem ⟨2, by decide, by decide⟩
    let moves := staleSession ReceiverProcess.twoSamples
    ∃ report, WeakProcess.report (system.run moves) = some report ∧
      (framesAccepted (system.events moves)).length + report.underruns = 1 ∧
      report.counts.received + report.malformedDropped = 1 := by
  obtain ⟨_, _, hreport⟩ := stale_loads_lose_nothing (P := exactPlatform .little fun _ sample => sample) {}
    (Vector.replicate _ (Vector.replicate _ 0)) ReceiverProcess.shortConfig
    (ReceiverProcess.silentRing ⟨2, by decide, by decide⟩) (staleSession ReceiverProcess.twoSamples)
    (main_of_progress (by decide +kernel))
  obtain ⟨report, hsome, hframes, _, _, hdatagrams, _⟩ := hreport rfl
  exact ⟨report, hsome, hframes.trans (by decide +kernel), hdatagrams.trans (by decide +kernel)⟩

end WeakProcess

end RtpStreamer
