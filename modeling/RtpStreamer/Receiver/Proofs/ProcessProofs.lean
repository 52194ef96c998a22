import RtpStreamer.Receiver.Process
import RtpStreamer.Receiver.Proofs.DrainLoopProofs
import RtpStreamer.Ring.Proofs.SpscRingProofs
import RtpStreamer.Run.Stuttering

/-!
# Proofs: the process refines the threads

Every interleaving of the process, with the ring taken access by access, is an interleaving of the three
threads of `Threads.lean` around an atomic queue: an access that completes a call of the ring is the step
that makes the call there, and every other access is invisible.
-/

namespace RtpStreamer

open BoundedFifo (Op Answer)

/-! ## The ring between two accesses -/

/-- The item of the push that is under way. -/
def PushPc.item {T : Type} {capacity : Capacity} : PushPc T capacity → Option T
  | .idle => none
  | .loadTail item _ => some item
  | .writeSlot item _ _ => some item
  | .storeHead item _ => some item

namespace SpscRing

variable {T : Type} {capacity : Capacity} {ring : SpscRing T capacity}

/-- An access of a push that offers one item either leaves that push under way or completes it. -/
theorem producerStep_cases {offered : T} (h : ∀ item, ring.producer.item = some item → item = offered) :
    ((ring.producerStep offered).2 = none ∧
      (ring.producerStep offered).1.producer.item = some offered) ∨
    ∃ accepted, (ring.producerStep offered).2 = some (.push offered, .pushed accepted) ∧
      (ring.producerStep offered).1.producer.item = none := by
  unfold producerStep
  cases hpc : ring.producer with
  | idle => exact Or.inl ⟨rfl, rfl⟩
  | loadTail item head =>
    obtain rfl := h item (by rw [hpc]; rfl)
    dsimp only
    split_ifs
    · exact Or.inr ⟨false, rfl, rfl⟩
    · exact Or.inl ⟨rfl, rfl⟩
  | writeSlot item head next =>
    obtain rfl := h item (by rw [hpc]; rfl)
    exact Or.inl ⟨rfl, rfl⟩
  | storeHead item next =>
    obtain rfl := h item (by rw [hpc]; rfl)
    exact Or.inr ⟨true, rfl, rfl⟩

/-- An access of a pop leaves the producer alone, and completes nothing but a pop. -/
theorem consumerStep_cases (ring : SpscRing T capacity) :
    ring.consumerStep.1.producer = ring.producer ∧
      (ring.consumerStep.2 = none ∨
        ∃ out, ring.consumerStep.2 = some (.pop, .popped out)) := by
  unfold consumerStep
  cases ring.consumer with
  | idle => exact ⟨rfl, Or.inl rfl⟩
  | loadHead tail =>
    dsimp only
    split_ifs
    · exact ⟨rfl, Or.inr ⟨none, rfl⟩⟩
    · exact ⟨rfl, Or.inl rfl⟩
  | readSlot tail => exact ⟨rfl, Or.inl rfl⟩
  | storeTail tail out => exact ⟨rfl, Or.inr ⟨some out, rfl⟩⟩

end SpscRing

/-! ## The refinement -/

/-- The frame that the playout thread is pushing. -/
def PlayoutPc.offered : PlayoutPc → Option Frame
  | .pushing _ frame => some frame
  | .waiting | .pulling _ | .countingUnderrun _ | .checking _ | .leaving | .storingDone | .exited => none

/-- What the threads see of an event of the process. -/
def ProcessEvent.happening : ProcessEvent → Option Happening
  | .called _ (some frame) => some (.pulled frame)
  | .pushed frame accepted => some (.pushed frame accepted)
  | _ => none

variable {P : Platform} {options : Options}
  {junk : Vector (Vector U8 kSlotPayloadBytes) kCapacity} {capacity : Capacity}
  {config : ReceiverConfig} {initial : Vector Frame capacity.size}

namespace ReceiverProcess

/-- The process and the receiver with the queue agree, and the ring holds the items of the queue. -/
structure Refines (process : ReceiverProcess P capacity)
    (receiver : Receiver (jitterSource P options junk) (capacity.size - 1)) : Prop where
  buffer : receiver.buffer = process.jbuf
  playoutDone : receiver.playoutDone = process.playoutDone
  underruns : receiver.underruns = process.underruns
  playout : receiver.playout = process.playout
  main : receiver.main = process.main
  samples : receiver.samples = process.samples
  linked : SpscRing.Linked process.ring receiver.ring.items
  /-- A push is under way only while the playout thread offers its item. -/
  offered : ∀ item, process.ring.producer.item = some item → process.playout.offered = some item

/-- How the threads answer a step of the process. -/
def AnswersMove (config : ReceiverConfig) (initial : Vector Frame capacity.size)
    (process : ReceiverProcess P capacity)
    (receiver : Receiver (jitterSource P options junk) (capacity.size - 1)) (move : ProcessMove) : Prop :=
  DetSystem.Answers (M := processSystem P config options junk capacity initial)
    (N := receiverSystem (jitterSource P options junk) (capacity.size - 1)) ProcessEvent.happening
    (fun process receiver => Refines process receiver) process receiver move

section Step

variable {process : ReceiverProcess P capacity}
  {receiver : Receiver (jitterSource P options junk) (capacity.size - 1)}

theorem Refines.receive (h : Refines process receiver) (read : SocketRead) :
    AnswersMove config initial process receiver (.receive read) := by
  have hstutter {result : ReceiverProcess P capacity × Option ProcessEvent}
      (hresult : process.receiveStep config read = result) (hrel : Refines result.1 receiver)
      (hobs : result.2.bind ProcessEvent.happening = none) :
      AnswersMove config initial process receiver (.receive read) := by
    subst hresult
    exact DetSystem.answers_stutter hrel hobs
  have hkeep (receive : ReceivePc) (lastActivity : Timespec) (malformedDropped : Nat) :
      Refines { process with
        receive := receive
        lastActivity := lastActivity
        malformedDropped := malformedDropped } receiver :=
    ⟨h.buffer, h.playoutDone, h.underruns, h.playout, h.main, h.samples, h.linked, h.offered⟩
  cases hpc : process.receive with
  | receiving =>
    have hstep : process.receiveStep config read = process.handleRead config read := by
      unfold ReceiverProcess.receiveStep
      rw [hpc]
    refine hstutter hstep ?_ ?_
    · unfold ReceiverProcess.handleRead
      cases read.datagram with
      | none =>
        dsimp only
        split_ifs
        · exact hkeep _ _ _
        · exact hkeep _ _ _
      | some datagram =>
        dsimp only
        cases parse P.byteOrder (datagram.take kMaxDatagramBytes) with
        | none => exact hkeep _ _ _
        | some parsed => exact hkeep _ _ _
    · unfold ReceiverProcess.handleRead
      cases read.datagram with
      | none =>
        dsimp only
        split_ifs <;> rfl
      | some datagram =>
        dsimp only
        cases parse P.byteOrder (datagram.take kMaxDatagramBytes) <;> rfl
  | locking reception =>
    cases hmutex : process.playout.holdsMutex with
    | true =>
      refine hstutter (?_ : process.receiveStep config read = (process, none)) h rfl
      unfold ReceiverProcess.receiveStep
      rw [hpc]
      exact if_pos hmutex
    | false =>
      -- the section under the mutex is the reception of the threads
      have hstep : process.receiveStep config read =
          ({ process with jbuf := process.jbuf.next reception.call, receive := .loadingDone },
            some (.called reception.call none)) := by
        unfold ReceiverProcess.receiveStep
        rw [hpc]
        exact if_neg (by rw [hmutex]; decide)
      have hreceive : receiver.receiveStep reception =
          { receiver with jbuf := (jitterSource P options junk).receive receiver.jbuf reception } := by
        unfold Receiver.receiveStep
        rw [h.playout, hmutex]
        rfl
      have hbuffer : (jitterSource P options junk).receive receiver.jbuf reception =
          process.jbuf.next reception.call := by
        rw [show receiver.jbuf = process.jbuf from h.buffer]
        cases reception <;> rfl
      refine DetSystem.answers_step (.receive reception) ?_ ?_
      · show Refines (process.receiveStep config read).1 (receiver.receiveStep reception)
        rw [hstep, hreceive]
        exact ⟨hbuffer, h.playoutDone, h.underruns, h.playout, h.main, h.samples, h.linked, h.offered⟩
      · show (process.receiveStep config read).2.bind _ = none
        rw [hstep]
        cases reception <;> rfl
  | loadingDone =>
    refine hstutter (?_ : process.receiveStep config read = ({ process with
      receive := if process.playoutDone then .exited else .receiving }, none)) (hkeep _ _ _) rfl
    unfold ReceiverProcess.receiveStep
    rw [hpc]
  | exited =>
    refine hstutter (?_ : process.receiveStep config read = (process, none)) h rfl
    unfold ReceiverProcess.receiveStep
    rw [hpc]

theorem playoutStep_pulling {now : U32} (hpc : process.playout = .pulling now) :
    process.playoutStep config =
      ({ process with
          jbuf := (process.jbuf.tryPullDueFrame now).2
          playout := match (process.jbuf.tryPullDueFrame now).1 with
            | some frame => .pushing now frame
            | none => .leaving },
        some (.called (.pull now) (process.jbuf.tryPullDueFrame now).1)) := by
  obtain ⟨jbuf, _, lastActivity, _, done, underruns, malformed, receive, playout⟩ := process
  obtain rfl : playout = .pulling now := hpc
  rfl

/-- The same step of the threads. -/
theorem receiver_pulling {source : FrameSource} {bound : Nat} {receiver : Receiver source bound}
    {now : U32} (hpc : receiver.playout = .pulling now) {result : Option Frame × source.State}
    (hpull : source.tryPullDueFrame receiver.jbuf now = result) (nowSamples : U32) :
    receiver.playoutStep nowSamples =
      ({ receiver with
          jbuf := result.2
          playout := match result.1 with
            | some frame => .pushing now frame
            | none => .leaving },
        result.1.map .pulled) := by
  obtain ⟨jbuf, ring, done, underruns, playout⟩ := receiver
  obtain rfl : playout = .pulling now := hpc
  obtain ⟨out, jbuf'⟩ := result
  unfold Receiver.playoutStep
  dsimp only at hpull ⊢
  rw [hpull]
  cases out <;> rfl

/-- An access of `ring.push` with others behind it. -/
theorem playoutStep_access {now : U32} {frame : Frame} (hpc : process.playout = .pushing now frame)
    {ring : SpscRing Frame capacity} (hring : process.ring.producerStep frame = (ring, none)) :
    process.playoutStep config = ({ process with ring := ring }, none) := by
  obtain ⟨jbuf, _, lastActivity, _, done, underruns, malformed, receive, playout⟩ := process
  obtain rfl : playout = .pushing now frame := hpc
  unfold ReceiverProcess.playoutStep
  dsimp only at hring ⊢
  rw [hring]

/-- The last access of `ring.push`. -/
theorem playoutStep_pushed {now : U32} {frame item : Frame} {accepted : Bool}
    (hpc : process.playout = .pushing now frame) {ring : SpscRing Frame capacity}
    (hring : process.ring.producerStep frame = (ring, some (.push item, .pushed accepted))) :
    process.playoutStep config =
      ({ process with
          ring := ring
          playout := if accepted then .checking now else .countingUnderrun now },
        some (.pushed frame accepted)) := by
  obtain ⟨jbuf, _, lastActivity, _, done, underruns, malformed, receive, playout⟩ := process
  obtain rfl : playout = .pushing now frame := hpc
  unfold ReceiverProcess.playoutStep
  dsimp only at hring ⊢
  rw [hring]

/-- The accesses of `ring.push`: the last one is the push of the threads. -/
theorem Refines.pushing (h : Refines process receiver) {now : U32} {frame : Frame}
    (hpc : process.playout = .pushing now frame) :
    AnswersMove config initial process receiver .playout := by
  have hproducer : ∀ item, process.ring.producer.item = some item → item = frame := by
    intro item hitem
    have hoffered := h.offered item hitem
    rw [hpc] at hoffered
    exact (Option.some.inj hoffered).symm
  have hlinked := h.linked.producerStep frame
  have hcases := SpscRing.producerStep_cases hproducer
  unfold SpscRing.Simulates at hlinked
  rcases hring : process.ring.producerStep frame with ⟨ring, answer⟩
  rw [hring] at hlinked hcases
  rcases hcases with ⟨hnone, hitem⟩ | ⟨accepted, hsome, hitem⟩
  · obtain rfl : answer = none := hnone
    have hstep : process.playoutStep config = _ := playoutStep_access hpc hring
    refine DetSystem.answers_stutter ?_ ?_
    · show Refines (process.playoutStep config).1 receiver
      rw [hstep]
      refine ⟨h.buffer, h.playoutDone, h.underruns, h.playout, h.main, h.samples, hlinked, ?_⟩
      intro item hitem'
      obtain rfl : frame = item := Option.some.inj (hitem.symm.trans hitem')
      show process.playout.offered = some frame
      rw [hpc]
      rfl
    · show (process.playoutStep config).2.bind _ = none
      rw [hstep]
      rfl
  · obtain rfl : answer = some (.push frame, .pushed accepted) := hsome
    have hstep : process.playoutStep config = _ := playoutStep_pushed hpc hring
    obtain ⟨haccepted, hlinked⟩ := hlinked
    have hpush : (receiver.ring.push frame).1 = accepted := Answer.pushed.inj haccepted
    have hreceiver : receiver.playoutStep now =
        ({ receiver with
            ring := (receiver.ring.push frame).2
            playout := if accepted then .checking now else .countingUnderrun now },
          some (.pushed frame accepted)) := by
      unfold Receiver.playoutStep
      rw [h.playout, hpc, ← hpush]
    refine DetSystem.answers_step (.playout now) ?_ ?_
    · show Refines (process.playoutStep config).1 (receiver.playoutStep now).1
      rw [hstep, hreceiver]
      refine ⟨h.buffer, h.playoutDone, h.underruns, rfl, h.main, h.samples, hlinked, ?_⟩
      intro item hitem'
      exact absurd (hitem.symm.trans hitem') (by simp)
    · show (process.playoutStep config).2.bind _ = (receiver.playoutStep now).2
      rw [hstep, hreceiver]
      rfl

theorem Refines.playoutStep (h : Refines process receiver) :
    AnswersMove config initial process receiver .playout := by
  let nowSamples := config.samplesAt (nextDeadline process.deadline)
  have hbuffer : receiver.jbuf = process.jbuf := h.buffer
  have hidle (hpc : process.playout.offered = none) (item : Frame) :
      ¬ process.ring.producer.item = some item := by
    intro hitem
    rw [h.offered item hitem] at hpc
    exact absurd hpc (by simp)
  have hstep {process' : ReceiverProcess P capacity} (event : Option ProcessEvent)
      {receiver' : Receiver (jitterSource P options junk) (capacity.size - 1)}
      (hprocess : process.playoutStep config = (process', event))
      (hreceiver : receiver.playoutStep nowSamples =
        (receiver', event.bind ProcessEvent.happening))
      (hrel : Refines process' receiver') :
      AnswersMove config initial process receiver .playout := by
    refine DetSystem.answers_step (.playout nowSamples) ?_ ?_
    · show Refines (process.playoutStep config).1 (receiver.playoutStep nowSamples).1
      rw [hprocess, hreceiver]
      exact hrel
    · show (process.playoutStep config).2.bind _ = (receiver.playoutStep nowSamples).2
      rw [hprocess, hreceiver]
  cases hpc : process.playout with
  | waiting =>
    refine hstep none (by unfold ReceiverProcess.playoutStep; rw [hpc])
      (by unfold Receiver.playoutStep; rw [h.playout, hpc]; rfl) ?_
    exact ⟨h.buffer, h.playoutDone, h.underruns, rfl, h.main, h.samples, h.linked,
      fun item hitem => absurd hitem (hidle (by rw [hpc]; rfl) item)⟩
  | pulling now =>
    have hpull : (jitterSource P options junk).tryPullDueFrame receiver.jbuf now =
        process.jbuf.tryPullDueFrame now := by
      rw [hbuffer]
      rfl
    have hevent (out : Option Frame) : out.map Happening.pulled =
        (some (ProcessEvent.called (.pull now) out)).bind ProcessEvent.happening := by
      cases out <;> rfl
    have hreceiver := receiver_pulling (h.playout.trans hpc) hpull nowSamples
    rw [hevent] at hreceiver
    exact hstep _ (playoutStep_pulling hpc) hreceiver
      ⟨rfl, h.playoutDone, h.underruns, rfl, h.main, h.samples, h.linked,
        fun item hitem => absurd hitem (hidle (by rw [hpc]; rfl) item)⟩
  | pushing now frame => exact h.pushing hpc
  | countingUnderrun now =>
    refine hstep none (by unfold ReceiverProcess.playoutStep; rw [hpc])
      (by unfold Receiver.playoutStep; rw [h.playout, hpc]; rfl) ?_
    exact ⟨h.buffer, h.playoutDone, congrArg (· + 1) h.underruns, rfl, h.main, h.samples, h.linked,
      fun item hitem => absurd hitem (hidle (by rw [hpc]; rfl) item)⟩
  | checking now =>
    refine hstep none (by unfold ReceiverProcess.playoutStep; rw [hpc])
      (by unfold Receiver.playoutStep; rw [h.playout, hpc]; rfl) ?_
    refine ⟨h.buffer, h.playoutDone, h.underruns, ?_, h.main, h.samples, h.linked,
      fun item hitem => absurd hitem (hidle (by rw [hpc]; rfl) item)⟩
    show (if (jitterSource P options junk).finished receiver.jbuf then _ else _) = _
    rw [hbuffer]
    rfl
  | leaving =>
    refine hstep none (by unfold ReceiverProcess.playoutStep; rw [hpc])
      (by unfold Receiver.playoutStep; rw [h.playout, hpc]; rfl) ?_
    refine ⟨h.buffer, h.playoutDone, h.underruns, ?_, h.main, h.samples, h.linked,
      fun item hitem => absurd hitem (hidle (by rw [hpc]; rfl) item)⟩
    show (if (jitterSource P options junk).finished receiver.jbuf then _ else _) = _
    rw [hbuffer]
    rfl
  | storingDone =>
    refine hstep none (by unfold ReceiverProcess.playoutStep; rw [hpc])
      (by unfold Receiver.playoutStep; rw [h.playout, hpc]; rfl) ?_
    exact ⟨h.buffer, rfl, h.underruns, rfl, h.main, h.samples, h.linked,
      fun item hitem => absurd hitem (hidle (by rw [hpc]; rfl) item)⟩
  | exited =>
    refine hstep none (by unfold ReceiverProcess.playoutStep; rw [hpc])
      (by unfold Receiver.playoutStep; rw [h.playout, hpc]; rfl) h

theorem popStep_access {ring : SpscRing Frame capacity} (hring : process.ring.consumerStep = (ring, none))
    (onEmpty : MainPc) : process.popStep onEmpty = { process with ring := ring } := by
  unfold ReceiverProcess.popStep
  rw [hring]

/-- The last access of `ring.pop`. -/
theorem popStep_popped {ring : SpscRing Frame capacity} {out : Option Frame}
    (hring : process.ring.consumerStep = (ring, some (.pop, .popped out))) (onEmpty : MainPc) :
    process.popStep onEmpty =
      { process with
        ring := ring
        samples := process.samples ++ samplesOf out.toList
        main := if out.isSome then .popping else onEmpty } := by
  unfold ReceiverProcess.popStep
  rw [hring]
  cases out with
  | none => simp [samplesOf]
  | some frame => simp [samplesOf]

/-- The same step of the threads. -/
theorem receiver_pop {source : FrameSource} {bound : Nat} (receiver : Receiver source bound)
    {onEmpty : MainPc}
    (hmain : (receiver.main = .popping ∧ onEmpty = .loadingDone) ∨
      (receiver.main = .lastPop ∧ onEmpty = .exited)) :
    receiver.mainStep =
      { receiver with
        ring := receiver.ring.pop.2
        samples := receiver.samples ++ samplesOf receiver.ring.pop.1.toList
        main := if receiver.ring.pop.1.isSome then .popping else onEmpty } := by
  obtain ⟨jbuf, ring, done, underruns, playout, main, samples⟩ := receiver
  unfold Receiver.mainStep
  dsimp only
  rcases ring.pop with ⟨out, ring'⟩
  rcases hmain with ⟨hpc, rfl⟩ | ⟨hpc, rfl⟩
  · obtain rfl : main = .popping := hpc
    cases out <;> simp [samplesOf]
  · obtain rfl : main = .lastPop := hpc
    cases out <;> simp [samplesOf]

/-- The accesses of `ring.pop`: the last one is the pop of the threads. -/
theorem Refines.popping (h : Refines process receiver) {onEmpty : MainPc}
    (hstep : process.mainStep config = process.popStep onEmpty)
    (hmain : (process.main = .popping ∧ onEmpty = .loadingDone) ∨
      (process.main = .lastPop ∧ onEmpty = .exited)) :
    AnswersMove config initial process receiver .main := by
  have hlinked := h.linked.consumerStep
  have hcases := SpscRing.consumerStep_cases process.ring
  unfold SpscRing.Simulates at hlinked
  rcases hring : process.ring.consumerStep with ⟨ring, answer⟩
  rw [hring] at hlinked hcases
  obtain ⟨hproducer, hnone | ⟨out, hsome⟩⟩ := hcases
  · obtain rfl : answer = none := hnone
    refine DetSystem.answers_stutter ?_ rfl
    show Refines (process.mainStep config) receiver
    rw [hstep, popStep_access hring]
    refine ⟨h.buffer, h.playoutDone, h.underruns, h.playout, h.main, h.samples, hlinked, ?_⟩
    intro item hitem
    exact h.offered item (hproducer ▸ hitem)
  · obtain rfl : answer = some (.pop, .popped out) := hsome
    obtain ⟨hpopped, hlinked⟩ := hlinked
    have hpop : receiver.ring.pop.1 = out := Answer.popped.inj hpopped
    rw [← h.main] at hmain
    refine DetSystem.answers_step .main ?_ rfl
    show Refines (process.mainStep config) receiver.mainStep
    rw [hstep, popStep_popped hring, receiver_pop receiver hmain, hpop]
    refine ⟨h.buffer, h.playoutDone, h.underruns, h.playout, rfl, ?_, hlinked, ?_⟩
    · show receiver.samples ++ _ = process.samples ++ _
      rw [h.samples]
    · intro item hitem
      exact h.offered item (hproducer ▸ hitem)

/-- What the main thread does behind its loop is out of the sight of the threads. -/
theorem Refines.endingStep (h : Refines process receiver) :
    Refines (process.endingStep config) receiver := by
  unfold ReceiverProcess.endingStep
  have hkeep (ending : EndingPc) (file : Option (Except String (List U8))) (report : Option Report) :
      Refines { process with ending := ending, file := file, report := report } receiver :=
    ⟨h.buffer, h.playoutDone, h.underruns, h.playout, h.main, h.samples, h.linked, h.offered⟩
  cases process.ending with
  | joiningReceive =>
    dsimp only
    split
    · exact hkeep _ _ _
    · exact h
  | joiningPlayout =>
    dsimp only
    split
    · exact hkeep _ _ _
    · exact h
  | writing => exact hkeep _ _ _
  | reporting => exact hkeep _ _ _
  | exited => exact h

theorem Refines.mainStep (h : Refines process receiver) :
    AnswersMove config initial process receiver .main := by
  cases hpc : process.main with
  | popping =>
    exact h.popping (by unfold ReceiverProcess.mainStep; rw [hpc]) (Or.inl ⟨hpc, rfl⟩)
  | loadingDone =>
    refine DetSystem.answers_step .main ?_ rfl
    show Refines (process.mainStep config) receiver.mainStep
    unfold ReceiverProcess.mainStep Receiver.mainStep
    rw [h.main, hpc]
    refine ⟨h.buffer, h.playoutDone, h.underruns, h.playout, ?_, h.samples, h.linked, h.offered⟩
    show (if receiver.playoutDone then _ else _) = _
    rw [h.playoutDone]
  | lastPop =>
    exact h.popping (by unfold ReceiverProcess.mainStep; rw [hpc]) (Or.inr ⟨hpc, rfl⟩)
  | exited =>
    refine DetSystem.answers_stutter ?_ rfl
    show Refines (process.mainStep config) receiver
    have hstep : process.mainStep config = process.endingStep config := by
      unfold ReceiverProcess.mainStep
      rw [hpc]
    rw [hstep]
    exact h.endingStep

theorem Refines.step (h : Refines process receiver) (move : ProcessMove) :
    AnswersMove config initial process receiver move := by
  cases move with
  | receive read => exact h.receive read
  | playout => exact h.playoutStep
  | main => exact h.mainStep

end Step

/-! ## What a thread leaves alone -/

structure MainKeeps (process process' : ReceiverProcess P capacity) : Prop where
  jbuf : process'.jbuf = process.jbuf
  lastActivity : process'.lastActivity = process.lastActivity
  underruns : process'.underruns = process.underruns
  malformedDropped : process'.malformedDropped = process.malformedDropped
  receive : process'.receive = process.receive
  playout : process'.playout = process.playout
  playoutDone : process'.playoutDone = process.playoutDone

structure ReceiveKeeps (process process' : ReceiverProcess P capacity) : Prop where
  ring : process'.ring = process.ring
  underruns : process'.underruns = process.underruns
  playout : process'.playout = process.playout
  main : process'.main = process.main
  ending : process'.ending = process.ending
  report : process'.report = process.report

structure PlayoutKeeps (process process' : ReceiverProcess P capacity) : Prop where
  lastActivity : process'.lastActivity = process.lastActivity
  receive : process'.receive = process.receive
  main : process'.main = process.main
  ending : process'.ending = process.ending
  report : process'.report = process.report

theorem popStep_keeps (process : ReceiverProcess P capacity) (onEmpty : MainPc) :
    MainKeeps process (process.popStep onEmpty) := by
  unfold ReceiverProcess.popStep
  split <;> exact ⟨rfl, rfl, rfl, rfl, rfl, rfl, rfl⟩

theorem endingStep_keeps (config : ReceiverConfig) (process : ReceiverProcess P capacity) :
    MainKeeps process (process.endingStep config) := by
  unfold ReceiverProcess.endingStep
  cases process.ending with
  | joiningReceive =>
    dsimp only
    split <;> exact ⟨rfl, rfl, rfl, rfl, rfl, rfl, rfl⟩
  | joiningPlayout =>
    dsimp only
    split <;> exact ⟨rfl, rfl, rfl, rfl, rfl, rfl, rfl⟩
  | writing => exact ⟨rfl, rfl, rfl, rfl, rfl, rfl, rfl⟩
  | reporting => exact ⟨rfl, rfl, rfl, rfl, rfl, rfl, rfl⟩
  | exited => exact ⟨rfl, rfl, rfl, rfl, rfl, rfl, rfl⟩

theorem mainStep_keeps (config : ReceiverConfig) (process : ReceiverProcess P capacity) :
    MainKeeps process (process.mainStep config) := by
  unfold ReceiverProcess.mainStep
  cases process.main with
  | popping => exact popStep_keeps process _
  | loadingDone => exact ⟨rfl, rfl, rfl, rfl, rfl, rfl, rfl⟩
  | lastPop => exact popStep_keeps process _
  | exited => exact endingStep_keeps config process

theorem receiveStep_keeps (config : ReceiverConfig) (process : ReceiverProcess P capacity)
    (read : SocketRead) : ReceiveKeeps process (process.receiveStep config read).1 := by
  unfold ReceiverProcess.receiveStep
  cases process.receive with
  | receiving =>
    dsimp only
    unfold ReceiverProcess.handleRead
    cases read.datagram with
    | none =>
      dsimp only
      split_ifs <;> exact ⟨rfl, rfl, rfl, rfl, rfl, rfl⟩
    | some datagram =>
      dsimp only
      cases parse P.byteOrder (datagram.take kMaxDatagramBytes) <;>
        exact ⟨rfl, rfl, rfl, rfl, rfl, rfl⟩
  | locking reception =>
    dsimp only
    split_ifs <;> exact ⟨rfl, rfl, rfl, rfl, rfl, rfl⟩
  | loadingDone => exact ⟨rfl, rfl, rfl, rfl, rfl, rfl⟩
  | exited => exact ⟨rfl, rfl, rfl, rfl, rfl, rfl⟩

theorem playoutStep_keeps (config : ReceiverConfig) (process : ReceiverProcess P capacity) :
    PlayoutKeeps process (process.playoutStep config).1 := by
  unfold ReceiverProcess.playoutStep
  cases process.playout with
  | pushing now frame =>
    dsimp only
    split <;> exact ⟨rfl, rfl, rfl, rfl, rfl⟩
  | waiting => exact ⟨rfl, rfl, rfl, rfl, rfl⟩
  | pulling now => exact ⟨rfl, rfl, rfl, rfl, rfl⟩
  | countingUnderrun now => exact ⟨rfl, rfl, rfl, rfl, rfl⟩
  | checking now => exact ⟨rfl, rfl, rfl, rfl, rfl⟩
  | leaving => exact ⟨rfl, rfl, rfl, rfl, rfl⟩
  | storingDone => exact ⟨rfl, rfl, rfl, rfl, rfl⟩
  | exited => exact ⟨rfl, rfl, rfl, rfl, rfl⟩

theorem refines_initial : Refines (processSystem P config options junk capacity initial).init
    (receiverSystem (jitterSource P options junk) (capacity.size - 1)).init where
  buffer := rfl
  playoutDone := rfl
  underruns := rfl
  playout := rfl
  main := rfl
  samples := rfl
  linked := SpscRing.linked_initial initial
  offered := fun item hitem => absurd hitem (by simp [processSystem, PushPc.item])

variable (options junk config initial)

/-- **Refinement.** Every interleaving of the process is one of the three threads around the queue. -/
theorem process_refines (moves : List ProcessMove) :
    ∃ threadMoves : List (Move (jitterSource P options junk)),
      Refines ((processSystem P config options junk capacity initial).run moves)
        ((receiverSystem (jitterSource P options junk) (capacity.size - 1)).run threadMoves) ∧
      ((processSystem P config options junk capacity initial).events moves).filterMap
          ProcessEvent.happening =
        (receiverSystem (jitterSource P options junk) (capacity.size - 1)).events threadMoves :=
  DetSystem.exists_run_of_answers refines_initial (fun _ _ move h => h.step move) moves

end ReceiverProcess

end RtpStreamer
