import RtpStreamer.Receiver.Proofs.TerminationProofs

/-!
# The process ends in silence only

The main thread leaves its loop behind the playout thread, the playout thread on a finished buffer, the
buffer is finished only when its stream has been ended, and the receive thread ends it only when a read has
timed out more than the idle timeout after the last datagram. So the process of a stream that goes on does
not end.
-/

namespace RtpStreamer

variable {P : Platform} (options : Options) (junk : Vector (Vector U8 kSlotPayloadBytes) kCapacity)
  {capacity : Capacity} (config : ReceiverConfig) (initial : Vector Frame capacity.size)

/-- The clock behind a read that returned a datagram. -/
def ProcessMove.heard : ProcessMove → Option ProcessEvent → Option Timespec
  | .receive read, some (.received _) => some read.now
  | _, _ => none

namespace ReceiverProcess

/-- Whether the playout thread has left its outer loop. -/
def leftLoop (process : ReceiverProcess P capacity) : Prop :=
  process.playout = .storingDone ∨ process.playout = .exited

/-- The playout thread leaves its loop on a finished buffer only. -/
theorem step_leftLoop (process : ReceiverProcess P capacity) (move : ProcessMove)
    (h : leftLoop (process.step config move).1) :
    leftLoop process ∨ process.jbuf.finished = true := by
  cases move with
  | receive read =>
    have hplayout : (process.receiveStep config read).1.playout = process.playout :=
      (receiveStep_keeps config process read).playout
    unfold leftLoop at h ⊢
    rw [← hplayout]
    exact Or.inl h
  | main =>
    have hplayout : (process.mainStep config).playout = process.playout :=
      (mainStep_keeps config process).playout
    unfold leftLoop at h ⊢
    rw [← hplayout]
    exact Or.inl h
  | playout =>
    change leftLoop (process.playoutStep config).1 at h
    unfold leftLoop playoutStep at h
    unfold leftLoop
    cases hpc : process.playout with
    | leaving =>
      rw [hpc] at h
      dsimp only at h
      split_ifs at h with hfinished
      · exact Or.inr hfinished
      · exact absurd h (by simp)
    | storingDone => exact Or.inl (Or.inl rfl)
    | exited => exact Or.inl (Or.inr rfl)
    | pulling now =>
      rw [hpc] at h
      dsimp only at h
      cases hpull : (process.jbuf.tryPullDueFrame now).1 <;> rw [hpull] at h <;> exact absurd h (by simp)
    | pushing now frame =>
      rw [hpc] at h
      dsimp only at h
      split at h
      · dsimp only at h
        split_ifs at h <;> exact absurd h (by simp)
      · exact absurd h (by simp)
    | checking now =>
      rw [hpc] at h
      dsimp only at h
      split_ifs at h <;> exact absurd h (by simp)
    | waiting =>
      rw [hpc] at h
      exact absurd h (by simp)
    | countingUnderrun now =>
      rw [hpc] at h
      exact absurd h (by simp)

/-- Once it has left its loop, the buffer has been finished. -/
theorem finished_before (moves : List ProcessMove)
    (h : leftLoop ((processSystem P config options junk capacity initial).run moves)) :
    ∃ before, before <+: (bufferCalls
        ((processSystem P config options junk capacity initial).events moves)).map Prod.fst ∧
      JitterBuffer.finished ((jitterSystem P options junk).run before) = true := by
  induction moves using List.reverseRecOn with
  | nil => exact absurd h (by simp [leftLoop, processSystem])
  | append_singleton moves move ih =>
    have hcalls : (bufferCalls
        ((processSystem P config options junk capacity initial).events moves)).map Prod.fst <+:
        (bufferCalls ((processSystem P config options junk capacity initial).events
          (moves ++ [move]))).map Prod.fst := by
      rw [DetSystem.events_snoc]
      unfold bufferCalls
      rw [List.filterMap_append, List.map_append]
      exact List.prefix_append _ _
    rw [DetSystem.run_snoc] at h
    rcases step_leftLoop config _ move h with hbefore | hfinished
    · obtain ⟨before, hinit, hfinished⟩ := ih hbefore
      exact ⟨before, hinit.trans hcalls, hfinished⟩
    · have hjbuf := (buffer_linearizable (P := P) options junk config initial moves).2
      exact ⟨_, hcalls, by rw [← hjbuf]; exact hfinished⟩

/-! ## The activity on the socket -/

/-- When the receive thread last had a datagram, or the process started. -/
def lastHeard (moves : List ProcessMove) : Timespec :=
  (((moves.zip ((processSystem P config options junk capacity initial).trace moves)).filterMap
    fun (move, event) => move.heard event).getLast?).getD config.processStart

/-- A read that times out more than the idle timeout after the last datagram. -/
def ReadsSilence (before : List ProcessMove) (move : ProcessMove) : Prop :=
  ∃ now, move = .receive { datagram := none, now := now } ∧
    idleMs (lastHeard (P := P) options junk config initial before) now > config.idleTimeoutMs ∧
    ReceiverProcess.receive ((processSystem P config options junk capacity initial).run before) = .receiving

theorem step_lastActivity (process : ReceiverProcess P capacity) (move : ProcessMove) :
    (process.step config move).1.lastActivity =
      (move.heard (process.step config move).2).getD process.lastActivity := by
  cases move with
  | main => exact (mainStep_keeps config process).lastActivity
  | playout => exact (playoutStep_keeps config process).lastActivity
  | receive read =>
    change (process.receiveStep config read).1.lastActivity =
      (ProcessMove.heard (.receive read) (process.receiveStep config read).2).getD process.lastActivity
    unfold receiveStep
    cases process.receive with
    | receiving =>
      dsimp only
      unfold handleRead
      cases read.datagram with
      | none =>
        dsimp only
        split_ifs <;> rfl
      | some datagram =>
        dsimp only
        cases parse P.byteOrder (datagram.take kMaxDatagramBytes) <;> rfl
    | locking reception =>
      dsimp only
      split_ifs <;> rfl
    | loadingDone => rfl
    | exited => rfl

theorem lastActivity_run (moves : List ProcessMove) :
    ReceiverProcess.lastActivity ((processSystem P config options junk capacity initial).run moves) =
      lastHeard (P := P) options junk config initial moves := by
  induction moves using List.reverseRecOn with
  | nil => rfl
  | append_singleton moves move ih =>
    have hstep := step_lastActivity config
      ((processSystem P config options junk capacity initial).run moves) move
    rw [ih] at hstep
    rw [DetSystem.run_snoc]
    refine hstep.trans ?_
    unfold lastHeard
    rw [DetSystem.trace_snoc, List.zip_append (DetSystem.length_trace _ moves).symm, List.filterMap_append,
      List.getLast?_append]
    let event := (ReceiverProcess.step config
      ((processSystem P config options junk capacity initial).run moves) move).2
    change (move.heard event).getD _ = (Option.or (List.getLast? (List.filterMap _ [(move, event)])) _).getD _
    rw [List.filterMap_cons]
    dsimp only
    cases move.heard event <;> rfl

/-! ## The end of the stream -/

/-- The stream has been ended, or the receive thread waits for the mutex to end it. -/
def Ends (process : ReceiverProcess P capacity) : Prop :=
  process.jbuf.streamEnded = true ∨ process.receive = .locking .idle

/-- The receive thread ends the stream behind a read that has timed out late enough. -/
theorem receiveStep_ends {process : ReceiverProcess P capacity} {read : SocketRead}
    (h : Ends (process.receiveStep config read).1) :
    Ends process ∨ (read.datagram = none ∧ idleMs process.lastActivity read.now > config.idleTimeoutMs ∧
      process.receive = .receiving) := by
  unfold Ends at h ⊢
  unfold receiveStep at h
  cases hpc : process.receive with
  | receiving =>
    rw [hpc] at h
    dsimp only at h
    unfold handleRead at h
    cases hread : read.datagram with
    | none =>
      rw [hread] at h
      dsimp only at h
      split_ifs at h with hidle
      · exact Or.inr ⟨rfl, hidle, rfl⟩
      · exact Or.inl (Or.inl (h.resolve_right (by simp)))
    | some datagram =>
      rw [hread] at h
      dsimp only at h
      cases hparse : parse P.byteOrder (datagram.take kMaxDatagramBytes) <;> rw [hparse] at h <;>
        exact Or.inl (Or.inl (h.resolve_right (by simp)))
  | locking reception =>
    rw [hpc] at h
    dsimp only at h
    split_ifs at h
    · rw [hpc] at h
      exact Or.inl h
    · cases reception with
      | idle => exact Or.inl (Or.inr rfl)
      | packet packet arrival =>
        have hended : (process.jbuf.push packet arrival).streamEnded = true := h.resolve_right (by simp)
        rw [JitterBuffer.push_streamEnded] at hended
        exact Or.inl (Or.inl hended)
  | loadingDone =>
    rw [hpc] at h
    refine Or.inl (Or.inl (h.resolve_right ?_))
    cases process.playoutDone <;> simp
  | exited =>
    rw [hpc] at h
    exact Or.inl (Or.inl (h.resolve_right (by simp [hpc])))

theorem step_ends {process : ReceiverProcess P capacity} {move : ProcessMove}
    (h : Ends (process.step config move).1) :
    Ends process ∨ ∃ now, move = .receive { datagram := none, now := now } ∧
      idleMs process.lastActivity now > config.idleTimeoutMs ∧ process.receive = .receiving := by
  cases move with
  | receive read =>
    rcases receiveStep_ends config h with hends | ⟨hnone, hidle, hpc⟩
    · exact Or.inl hends
    · obtain ⟨datagram, now⟩ := read
      obtain rfl : datagram = none := hnone
      exact Or.inr ⟨now, rfl, hidle, hpc⟩
  | main =>
    have hkeeps := mainStep_keeps config process
    change Ends (process.mainStep config) at h
    unfold Ends at h ⊢
    rw [hkeeps.jbuf, hkeeps.receive] at h
    exact Or.inl h
  | playout =>
    have hreceive := (playoutStep_keeps config process).receive
    change Ends (process.playoutStep config).1 at h
    unfold Ends at h ⊢
    rw [hreceive] at h
    refine Or.inl (h.imp_left fun hended => ?_)
    cases hpc : process.playout with
    | pulling now =>
      rw [playoutStep_pulling hpc] at hended
      rw [← (process.jbuf.pull_cursor now).1]
      exact hended
    | pushing now frame =>
      unfold playoutStep at hended
      rw [hpc] at hended
      dsimp only at hended
      split at hended <;> exact hended
    | waiting => simpa only [playoutStep, hpc] using hended
    | countingUnderrun now => simpa only [playoutStep, hpc] using hended
    | checking now => simpa only [playoutStep, hpc] using hended
    | leaving => simpa only [playoutStep, hpc] using hended
    | storingDone => simpa only [playoutStep, hpc] using hended
    | exited => simpa only [playoutStep, hpc] using hended

/-! ## Whole runs -/

theorem silence_before (moves : List ProcessMove)
    (h : Ends ((processSystem P config options junk capacity initial).run moves)) :
    ∃ before move, before ++ [move] <+: moves ∧
      ReadsSilence (P := P) options junk config initial before move := by
  induction moves using List.reverseRecOn with
  | nil => exact absurd h (by simp [Ends, processSystem, JitterBuffer.fresh])
  | append_singleton moves move ih =>
    rw [DetSystem.run_snoc] at h
    rcases step_ends config h with hbefore | ⟨now, hmove, hidle, hpc⟩
    · obtain ⟨before, move', hinit, hsilence⟩ := ih hbefore
      exact ⟨before, move', hinit.trans (List.prefix_append _ _), hsilence⟩
    · rw [lastActivity_run] at hidle
      exact ⟨moves, move, List.prefix_refl _, now, hmove, hidle, hpc⟩

theorem finished_ended {jb : JitterBuffer P} (h : jb.finished = true) : jb.streamEnded = true := by
  unfold JitterBuffer.finished at h
  cases hended : jb.streamEnded with
  | true => rfl
  | false =>
    rw [hended] at h
    cases hstarted : jb.started <;> rw [hstarted] at h <;> exact absurd h (by simp)

/-- The receive thread returns behind a load of `playout_done`. -/
theorem receiveStep_returns {process : ReceiverProcess P capacity} {read : SocketRead}
    (h : (process.receiveStep config read).1.receive = .exited) :
    (process.receive = .exited ∨ process.playoutDone = true) ∧
      (process.receiveStep config read).1.playoutDone = process.playoutDone := by
  unfold receiveStep at h ⊢
  cases hpc : process.receive with
  | receiving =>
    rw [hpc] at h
    dsimp only at h
    unfold handleRead at h
    cases hread : read.datagram with
    | none =>
      rw [hread] at h
      dsimp only at h
      split_ifs at h
    | some datagram =>
      rw [hread] at h
      dsimp only at h
      cases hparse : parse P.byteOrder (datagram.take kMaxDatagramBytes) <;> rw [hparse] at h <;>
        exact ReceivePc.noConfusion h
  | locking reception =>
    rw [hpc] at h
    dsimp only at h
    split_ifs at h
    exact ReceivePc.noConfusion (hpc.symm.trans h)
  | loadingDone =>
    rw [hpc] at h
    dsimp only at h ⊢
    refine ⟨Or.inr ?_, rfl⟩
    cases hdone : process.playoutDone with
    | true => rfl
    | false =>
      rw [hdone] at h
      exact ReceivePc.noConfusion h
  | exited => exact ⟨Or.inl rfl, rfl⟩

theorem playoutStep_done {process : ReceiverProcess P capacity} (h : process.playoutDone = true) :
    (process.playoutStep config).1.playoutDone = true := by
  unfold playoutStep
  cases process.playout with
  | pushing now frame =>
    dsimp only
    split <;> exact h
  | storingDone => rfl
  | waiting => exact h
  | pulling now => exact h
  | countingUnderrun now => exact h
  | checking now => exact h
  | leaving => exact h
  | exited => exact h

/-- Outside its loop the playout thread has seen the stream ended, and the receive thread has seen
`playout_done`. -/
structure Leaving (process : ReceiverProcess P capacity) : Prop where
  playout : leftLoop process → process.jbuf.streamEnded = true
  receive : process.receive = .exited → process.playoutDone = true

theorem Leaving.step {process : ReceiverProcess P capacity} (h : Leaving process) (move : ProcessMove) :
    Leaving (process.step config move).1 where
  playout := fun hleft => step_streamEnded config
    ((step_leftLoop config process move hleft).elim h.playout finished_ended) move
  receive := by
    intro hexited
    cases move with
    | receive read =>
      obtain ⟨hreturns, hdone⟩ := receiveStep_returns config hexited
      exact hdone.trans (hreturns.elim h.receive id)
    | playout =>
      have hreceive := (playoutStep_keeps config process).receive
      exact playoutStep_done config (h.receive (hreceive.symm.trans hexited))
    | main =>
      have hkeeps := mainStep_keeps config process
      exact hkeeps.playoutDone.trans (h.receive (hkeeps.receive.symm.trans hexited))

/-- **Silence.** A thread leaves its loop only if a read of the socket has timed out more than the idle
timeout after the last datagram. -/
theorem ends_only_after_silence (moves : List ProcessMove)
    (hleft : let process : ReceiverProcess P capacity :=
        (processSystem P config options junk capacity initial).run moves
      leftLoop process ∨ process.receive = .exited ∨ process.main = .exited) :
    ∃ before move, before ++ [move] <+: moves ∧
      ReadsSilence (P := P) options junk config initial before move := by
  have hleaving : Leaving ((processSystem P config options junk capacity initial).run moves) := by
    refine DetSystem.invariant (M := processSystem P config options junk capacity initial)
      (P := fun process : ReceiverProcess P capacity => Leaving process) ?_
      (fun _ move h => h.step config move) moves
    exact ⟨fun h => absurd h (by simp [leftLoop, processSystem]), fun h => ReceivePc.noConfusion h⟩
  obtain ⟨receiver, hrefines, haccounted⟩ := accounted_process (P := P) options junk config initial moves
  have hdone (h : ReceiverProcess.playoutDone
      ((processSystem P config options junk capacity initial).run moves) = true) :
      leftLoop ((processSystem P config options junk capacity initial).run moves) :=
    Or.inr (hrefines.playout.symm.trans (haccounted.done (hrefines.playoutDone.trans h)))
  refine silence_before options junk config initial moves (Or.inl (hleaving.playout ?_))
  rcases hleft with hplayout | hreceive | hmain
  · exact hplayout
  · exact hdone (hleaving.receive hreceive)
  · exact hdone (hrefines.playoutDone.symm.trans (haccounted.exited (hrefines.main.trans hmain)).1)

/-- The session of one datagram ends in silence. -/
theorem ends_only_after_silence_example :
    ∃ before move, before ++ [move] <+: shortSession twoSamples ∧
      ReadsSilence (P := exactPlatform .little fun _ sample => sample) {}
        (Vector.replicate _ (Vector.replicate _ 0)) shortConfig (silentRing ⟨2, by decide, by decide⟩)
        before move :=
  ends_only_after_silence {} _ shortConfig _ (shortSession twoSamples) (Or.inr (Or.inr (by decide +kernel)))

end ReceiverProcess

end RtpStreamer
