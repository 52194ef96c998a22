import RtpStreamer.Receiver.Threads

/-!
# The shutdown of the receiver

The playout thread stores `playout_done` after its last push, so once the main thread has loaded the
flag nothing is pushed any more, and a pop that fails after that load found the ring empty for good.
-/

namespace RtpStreamer

/-- The frames that the playout thread has pulled and neither pushed nor counted as underruns. -/
def PlayoutPc.pending : PlayoutPc → Nat
  | .pushing _ _ | .countingUnderrun _ => 1
  | .waiting | .pulling _ | .checking _ | .leaving | .storingDone | .exited => 0

/-- The samples of a list of frames. -/
def samplesOf (frames : List Frame) : List I16 := frames.flatMap Vector.toList

theorem samplesOf_append (frames frames' : List Frame) :
    samplesOf (frames ++ frames') = samplesOf frames ++ samplesOf frames' :=
  List.flatMap_append

theorem samplesOf_singleton (frame : Frame) : samplesOf [frame] = frame.toList :=
  List.flatMap_singleton _ _

theorem samplesOf_length (frames : List Frame) :
    (samplesOf frames).length = frames.length * kFrameSamples := by
  induction frames with
  | nil => simp [samplesOf]
  | cons frame frames ih =>
    unfold samplesOf at ih ⊢
    rw [List.flatMap_cons, List.length_append, ih, Vector.length_toList, List.length_cons,
      Nat.succ_mul, Nat.add_comm]

namespace Receiver

variable {source : FrameSource} {bound : Nat}

/-! ## The invariant -/

/-- Where the frames pulled and the frames accepted by the ring are, and what the main thread may
conclude from the flag. -/
structure Accounted (receiver : Receiver source bound) (pulled accepted : List Frame) : Prop where
  delivered : samplesOf accepted = receiver.samples ++ samplesOf receiver.ring.items
  counted : pulled.length = accepted.length + receiver.underruns + receiver.playout.pending
  done : receiver.playoutDone = true → receiver.playout = .exited
  lastPop : receiver.main = .lastPop → receiver.playoutDone = true
  exited : receiver.main = .exited → receiver.playoutDone = true ∧ receiver.ring.items = []

theorem accounted_initial : Accounted ({} : Receiver source bound) [] [] where
  delivered := rfl
  counted := rfl
  done := fun h => absurd h (by simp)
  lastPop := fun h => absurd h (by simp)
  exited := fun h => absurd h (by simp)

/-- While the playout thread runs, the flag is unset and the main thread is in its loop. -/
theorem Accounted.running {receiver : Receiver source bound} {pulled accepted : List Frame}
    (h : Accounted receiver pulled accepted) (hrun : receiver.playout ≠ .exited) :
    receiver.playoutDone = false ∧ receiver.main ≠ .lastPop ∧ receiver.main ≠ .exited := by
  have hdone : ¬ receiver.playoutDone = true := fun hd => hrun (h.done hd)
  exact ⟨Bool.eq_false_iff.mpr hdone, fun hm => hdone (h.lastPop hm),
    fun hm => hdone (h.exited hm).1⟩

/-- A step of the running playout thread keeps the books when it keeps the balance of the frames. -/
theorem Accounted.of_running {receiver receiver' : Receiver source bound}
    {pulled pulled' accepted accepted' : List Frame} (h : Accounted receiver pulled accepted)
    (hrun : receiver.playout ≠ .exited) (hdone : receiver'.playoutDone = receiver.playoutDone)
    (hmain : receiver'.main = receiver.main)
    (hdelivered : samplesOf accepted' = receiver'.samples ++ samplesOf receiver'.ring.items)
    (hcounted : pulled'.length =
      accepted'.length + receiver'.underruns + receiver'.playout.pending) :
    Accounted receiver' pulled' accepted' := by
  obtain ⟨hfalse, hlast, hexit⟩ := h.running hrun
  refine ⟨hdelivered, hcounted, ?_, ?_, ?_⟩
  · intro hd
    rw [hdone, hfalse] at hd
    exact absurd hd (by decide)
  · exact fun hm => absurd (hmain.symm.trans hm) hlast
  · exact fun hm => absurd (hmain.symm.trans hm) hexit

/-! ## One step -/

theorem Accounted.receiveStep {receiver : Receiver source bound} {pulled accepted : List Frame}
    (h : Accounted receiver pulled accepted) (reception : source.Reception) :
    Accounted (receiver.receiveStep reception) pulled accepted := by
  unfold Receiver.receiveStep
  split_ifs
  · exact h
  · exact ⟨h.delivered, h.counted, h.done, h.lastPop, h.exited⟩

/-- The books after a step with its happening entered. -/
def Keeps (pulled accepted : List Frame) (result : Receiver source bound × Option Happening) : Prop :=
  Accounted result.1 (pulled ++ pulledFrames [result.2]) (accepted ++ acceptedFrames [result.2])

theorem keeps_none {receiver : Receiver source bound} {pulled accepted : List Frame}
    (h : Accounted receiver pulled accepted) : Keeps pulled accepted (receiver, none) := by
  show Accounted receiver (pulled ++ []) (accepted ++ [])
  rw [List.append_nil, List.append_nil]
  exact h

theorem keeps_pulled {receiver : Receiver source bound} {pulled accepted : List Frame}
    {frame : Frame} (h : Accounted receiver (pulled ++ [frame]) accepted) :
    Keeps pulled accepted (receiver, some (.pulled frame)) := by
  show Accounted receiver (pulled ++ [frame]) (accepted ++ [])
  rw [List.append_nil]
  exact h

theorem keeps_pushed {receiver : Receiver source bound} {pulled accepted : List Frame}
    {frame : Frame} {result : Bool}
    (h : Accounted receiver pulled (accepted ++ if result then [frame] else [])) :
    Keeps pulled accepted (receiver, some (.pushed frame result)) := by
  show Accounted receiver (pulled ++ []) _
  rw [List.append_nil]
  cases result <;> exact h

/-- A push moves the pending frame into the ring, or leaves it to be counted as an underrun. -/
theorem Accounted.push {receiver : Receiver source bound} {pulled accepted : List Frame}
    (h : Accounted receiver pulled accepted) {now : U32} {frame : Frame}
    (hpc : receiver.playout = .pushing now frame) :
    Accounted { receiver with
        ring := (receiver.ring.push frame).2
        playout := if (receiver.ring.push frame).1 then .checking now else .countingUnderrun now }
      pulled (accepted ++ if (receiver.ring.push frame).1 then [frame] else []) := by
  have hcounted := h.counted
  rw [hpc] at hcounted
  have hpending : (PlayoutPc.pushing now frame).pending = 1 := rfl
  refine h.of_running (by rw [hpc]; simp) rfl rfl ?_ ?_
  · show _ = receiver.samples ++ samplesOf (receiver.ring.push frame).2.items
    rw [receiver.ring.push_items, samplesOf_append, samplesOf_append, h.delivered,
      List.append_assoc]
  · show _ = _ + receiver.underruns + PlayoutPc.pending _
    cases (receiver.ring.push frame).1 with
    | true =>
      simp only [if_true, PlayoutPc.pending, List.length_append, List.length_singleton]
      omega
    | false =>
      rw [if_neg (by decide), List.append_nil]
      exact hcounted

theorem Accounted.playoutStep {receiver : Receiver source bound} {pulled accepted : List Frame}
    (h : Accounted receiver pulled accepted) (now : U32) :
    Keeps pulled accepted (receiver.playoutStep now) := by
  have hcounted := h.counted
  unfold Receiver.playoutStep
  cases hpc : receiver.playout with
  | waiting =>
    rw [hpc] at hcounted
    exact keeps_none (h.of_running (by rw [hpc]; simp) rfl rfl h.delivered hcounted)
  | pulling now =>
    rw [hpc] at hcounted
    dsimp only
    rcases source.tryPullDueFrame receiver.jbuf now with ⟨_ | frame, jbuf⟩
    · exact keeps_none (h.of_running (by rw [hpc]; simp) rfl rfl h.delivered hcounted)
    · refine keeps_pulled (h.of_running (by rw [hpc]; simp) rfl rfl h.delivered ?_)
      rw [List.length_append, hcounted]
      rfl
  | pushing now frame => exact keeps_pushed (h.push hpc)
  | countingUnderrun now =>
    rw [hpc] at hcounted
    exact keeps_none (h.of_running (by rw [hpc]; simp) rfl rfl h.delivered hcounted)
  | checking now =>
    rw [hpc] at hcounted
    refine keeps_none (h.of_running (by rw [hpc]; simp) rfl rfl h.delivered ?_)
    show _ = _ + receiver.underruns + PlayoutPc.pending (if _ then _ else _)
    split_ifs <;> exact hcounted
  | leaving =>
    rw [hpc] at hcounted
    refine keeps_none (h.of_running (by rw [hpc]; simp) rfl rfl h.delivered ?_)
    show _ = _ + receiver.underruns + PlayoutPc.pending (if _ then _ else _)
    split_ifs <;> exact hcounted
  | storingDone =>
    rw [hpc] at hcounted
    obtain ⟨_, _, hexit⟩ := h.running (by rw [hpc]; simp)
    exact keeps_none ⟨h.delivered, hcounted, fun _ => rfl, fun _ => rfl,
      fun hm => absurd hm hexit⟩
  | exited => exact keeps_none h

/-- A pop moves the oldest frame of the ring to the samples. -/
theorem Accounted.pop_some {receiver : Receiver source bound} {pulled accepted : List Frame}
    (h : Accounted receiver pulled accepted) {frame : Frame} {ring : BoundedFifo Frame bound}
    (hpop : receiver.ring.pop = (some frame, ring)) :
    Accounted { receiver with
        ring := ring
        samples := receiver.samples ++ frame.toList
        main := .popping } pulled accepted := by
  have hitems := receiver.ring.pop_items
  rw [hpop] at hitems
  refine ⟨?_, h.counted, h.done, fun hm => absurd hm (by simp), fun hm => absurd hm (by simp)⟩
  rw [h.delivered, hitems, samplesOf_append, List.append_assoc]
  congr 2
  exact samplesOf_singleton frame

/-- A pop that fails leaves the ring empty; the main thread may exit after it when the flag is set. -/
theorem Accounted.pop_none {receiver : Receiver source bound} {pulled accepted : List Frame}
    (h : Accounted receiver pulled accepted) {ring : BoundedFifo Frame bound}
    (hpop : receiver.ring.pop = (none, ring)) {pc : MainPc}
    (hpc : pc = .loadingDone ∨ receiver.playoutDone = true) :
    Accounted { receiver with ring := ring, main := pc } pulled accepted := by
  have hnil := receiver.ring.pop_eq_none_iff.mp (congrArg Prod.fst hpop)
  have hring : ring.items = receiver.ring.items.tail :=
    congrArg (fun result => BoundedFifo.items result.2) hpop.symm
  have hempty : ring.items = [] := by rw [hring, hnil]; rfl
  refine ⟨?_, h.counted, h.done, ?_, ?_⟩
  · rw [h.delivered, hnil, hempty]
  · intro hm
    exact hpc.resolve_left fun hl => absurd (hl.symm.trans hm) (by decide)
  · intro hm
    exact ⟨hpc.resolve_left fun hl => absurd (hl.symm.trans hm) (by decide), hempty⟩

theorem Accounted.mainStep {receiver : Receiver source bound} {pulled accepted : List Frame}
    (h : Accounted receiver pulled accepted) : Accounted receiver.mainStep pulled accepted := by
  unfold Receiver.mainStep
  cases hpc : receiver.main with
  | popping =>
    dsimp only
    rcases hpop : receiver.ring.pop with ⟨_ | frame, ring⟩
    · exact h.pop_none hpop (Or.inl rfl)
    · exact h.pop_some hpop
  | loadingDone =>
    dsimp only
    cases hd : receiver.playoutDone with
    | true => exact ⟨h.delivered, h.counted, fun _ => h.done hd, fun _ => rfl, fun hm => by simp at hm⟩
    | false =>
      exact ⟨h.delivered, h.counted, fun hd => by simp at hd, fun hm => by simp at hm,
        fun hm => by simp at hm⟩
  | lastPop =>
    dsimp only
    rcases hpop : receiver.ring.pop with ⟨_ | frame, ring⟩
    · exact h.pop_none hpop (Or.inr (h.lastPop hpc))
    · exact h.pop_some hpop
  | exited => exact h

theorem Accounted.step {receiver : Receiver source bound} {pulled accepted : List Frame}
    (h : Accounted receiver pulled accepted) (move : Move source) :
    Keeps pulled accepted (receiver.step move) := by
  cases move with
  | receive reception => exact keeps_none (h.receiveStep reception)
  | playout now => exact h.playoutStep now
  | main => exact keeps_none h.mainStep

/-! ## Runs -/

theorem accounted_run (source : FrameSource) (bound : Nat) (moves : List (Move source)) :
    Accounted ((receiverSystem source bound).run moves)
      (pulledFrames ((receiverSystem source bound).trace moves))
      (acceptedFrames ((receiverSystem source bound).trace moves)) := by
  refine DetSystem.run_induction (M := receiverSystem source bound)
    (P := fun moves receiver => Accounted receiver
      (pulledFrames ((receiverSystem source bound).trace moves))
      (acceptedFrames ((receiverSystem source bound).trace moves))) accounted_initial ?_ moves
  intro moves move h
  have hstep := Accounted.step h move
  unfold Keeps pulledFrames acceptedFrames at hstep
  unfold pulledFrames acceptedFrames
  rw [DetSystem.trace_snoc, List.filterMap_append, List.filterMap_append]
  exact hstep

/-- **Shutdown.** Whatever frames the playout thread offers before it stores `playout_done`, and however
its steps interleave with the main thread: when the main thread has left its loop, the samples are
those of the frames whose push returned true, in order, nothing is left in the ring, and every frame
that was pulled is either among the samples or counted as an underrun. -/
theorem shutdown_loses_nothing (source : FrameSource) (bound : Nat) (moves : List (Move source))
    (hexited : ((receiverSystem source bound).run moves : Receiver source bound).main = .exited) :
    let receiver : Receiver source bound := (receiverSystem source bound).run moves
    let happenings := (receiverSystem source bound).trace moves
    receiver.samples = (acceptedFrames happenings).flatMap Vector.toList ∧
    receiver.ring.items = [] ∧
    receiver.samples.length / kFrameSamples + receiver.underruns =
      (pulledFrames happenings).length := by
  intro receiver happenings
  have h : Accounted receiver (pulledFrames happenings) (acceptedFrames happenings) :=
    accounted_run source bound moves
  obtain ⟨hdone, hempty⟩ := h.exited hexited
  have hsamples : receiver.samples = samplesOf (acceptedFrames happenings) := by
    rw [h.delivered, hempty]
    exact (List.append_nil _).symm
  refine ⟨hsamples, hempty, ?_⟩
  have hpending : receiver.playout.pending = 0 := by
    rw [h.done hdone]
    rfl
  rw [hsamples, samplesOf_length, Nat.mul_div_cancel _ (by decide), h.counted, hpending]
  rfl

/-- Two frames and a ring of one place: the playout thread runs to its end between two pops of the main
thread, which finds the first frame in its last pop. -/
def lateShutdown : List (Move (listSource [silence, silence])) :=
  .main :: (List.replicate 12 (.playout 160) ++ List.replicate 6 .main)

theorem shutdown_loses_nothing_example :
    let receiver : Receiver (listSource [silence, silence]) 1 :=
      (receiverSystem (listSource [silence, silence]) 1).run lateShutdown
    receiver.underruns = 1 ∧ receiver.ring.items = [] ∧
      receiver.samples.length / kFrameSamples + receiver.underruns =
        (pulledFrames ((receiverSystem (listSource [silence, silence]) 1).trace
          lateShutdown)).length := by
  have hexited : Receiver.main ((receiverSystem (listSource [silence, silence]) 1).run
      lateShutdown : Receiver _ 1) = .exited := by decide +kernel
  have hunderruns : Receiver.underruns ((receiverSystem (listSource [silence, silence]) 1).run
      lateShutdown : Receiver _ 1) = 1 := by decide +kernel
  obtain ⟨_, hempty, hbalance⟩ :=
    shutdown_loses_nothing (listSource [silence, silence]) 1 lateShutdown hexited
  exact ⟨hunderruns, hempty, hbalance⟩

/-! ## The frames of a source -/

/-- A step of the receiver either leaves the source alone, or hands a reception to it, or pulls. -/
theorem source_step {Q : source.State → List Frame → Prop} {pulled : List Frame}
    (receive : ∀ state pulled reception, Q state pulled → Q (source.receive state reception) pulled)
    (pull : ∀ state pulled now, Q state pulled →
      Q (source.tryPullDueFrame state now).2
        (pulled ++ (source.tryPullDueFrame state now).1.toList))
    {receiver : Receiver source bound} (h : Q receiver.jbuf pulled) (move : Move source) :
    Q (receiver.step move).1.jbuf (pulled ++ pulledFrames [(receiver.step move).2]) := by
  cases move with
  | receive reception =>
    show Q (receiver.receiveStep reception).jbuf (pulled ++ [])
    rw [List.append_nil]
    unfold receiveStep
    split_ifs
    · exact h
    · exact receive _ _ reception h
  | playout now =>
    have hkeep : Q receiver.jbuf (pulled ++ []) := by
      rw [List.append_nil]
      exact h
    show Q (receiver.playoutStep now).1.jbuf (pulled ++ pulledFrames [(receiver.playoutStep now).2])
    unfold playoutStep
    cases receiver.playout with
    | waiting => exact hkeep
    | pulling now =>
      dsimp only
      have hpull := pull receiver.jbuf pulled now h
      generalize source.tryPullDueFrame receiver.jbuf now = result at hpull ⊢
      rcases result with ⟨_ | frame, jbuf⟩ <;> exact hpull
    | pushing now frame => exact hkeep
    | countingUnderrun now => exact hkeep
    | checking now => exact hkeep
    | leaving => exact hkeep
    | storingDone => exact hkeep
    | exited => exact hkeep
  | main =>
    show Q receiver.mainStep.jbuf (pulled ++ [])
    rw [List.append_nil]
    unfold mainStep
    cases receiver.main with
    | popping =>
      dsimp only
      rcases receiver.ring.pop with ⟨_ | frame, ring⟩ <;> exact h
    | loadingDone => exact h
    | lastPop =>
      dsimp only
      rcases receiver.ring.pop with ⟨_ | frame, ring⟩ <;> exact h
    | exited => exact h

/-- What a source and the frames pulled from it have in common, when receptions and pulls keep it. -/
theorem source_run (source : FrameSource) (bound : Nat) {Q : source.State → List Frame → Prop}
    (init : Q source.init [])
    (receive : ∀ state pulled reception, Q state pulled → Q (source.receive state reception) pulled)
    (pull : ∀ state pulled now, Q state pulled →
      Q (source.tryPullDueFrame state now).2
        (pulled ++ (source.tryPullDueFrame state now).1.toList)) (moves : List (Move source)) :
    Q (Receiver.jbuf ((receiverSystem source bound).run moves : Receiver source bound))
      (pulledFrames ((receiverSystem source bound).trace moves)) := by
  refine DetSystem.run_induction (M := receiverSystem source bound)
    (P := fun moves receiver => Q (Receiver.jbuf receiver)
      (pulledFrames ((receiverSystem source bound).trace moves))) init ?_ moves
  intro moves move h
  unfold pulledFrames at h ⊢
  rw [DetSystem.trace_snoc, List.filterMap_append]
  generalize (receiverSystem source bound).run moves = receiver at h ⊢
  exact source_step receive pull h move

/-- The frames that the playout thread of the receiver pulls are those that the jitter buffer plays on
some sequence of calls. -/
theorem pulledFrames_jitterSource (P : Platform) (options : Options)
    (junk : Vector (Vector U8 kSlotPayloadBytes) kCapacity)
    (moves : List (Move (jitterSource P options junk))) :
    ∃ calls : List Call,
      Receiver.jbuf ((receiverSystem (jitterSource P options junk) bound).run moves :
        Receiver (jitterSource P options junk) bound) = (jitterSystem P options junk).run calls ∧
      pulledFrames ((receiverSystem (jitterSource P options junk) bound).trace moves) =
        ((jitterSystem P options junk).trace calls).filterMap id := by
  refine source_run (jitterSource P options junk) bound
    (Q := fun jb pulled => ∃ calls : List Call, jb = (jitterSystem P options junk).run calls ∧
      pulled = ((jitterSystem P options junk).trace calls).filterMap id) ⟨[], rfl, rfl⟩ ?_ ?_ moves
  · rintro _ _ reception ⟨calls, rfl, rfl⟩
    cases reception with
    | packet packet arrival =>
      refine ⟨calls ++ [.push packet arrival], ?_, ?_⟩
      · rw [DetSystem.run_snoc]
        rfl
      · rw [DetSystem.trace_snoc, List.filterMap_append]
        exact (List.append_nil _).symm
    | idle =>
      refine ⟨calls ++ [.markStreamEnded], ?_, ?_⟩
      · rw [DetSystem.run_snoc]
        rfl
      · rw [DetSystem.trace_snoc, List.filterMap_append]
        exact (List.append_nil _).symm
  · rintro _ _ now ⟨calls, rfl, rfl⟩
    refine ⟨calls ++ [.pull now], ?_, ?_⟩
    · rw [DetSystem.run_snoc]
      rfl
    · rw [DetSystem.trace_snoc, List.filterMap_append]
      congr 1

end Receiver

end RtpStreamer
