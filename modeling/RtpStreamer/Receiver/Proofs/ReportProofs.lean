import RtpStreamer.Jitter.Proofs.LapProofs
import RtpStreamer.Receiver.Proofs.ProcessProofs
import RtpStreamer.Sender.Proofs.AlignmentProofs

/-!
# What the process reports

The calls of the two threads on the jitter buffer take effect one after the other, in the order in which
they held its mutex. What the process writes and prints at its end accounts for every datagram it received
and for every frame the jitter buffer produced.
-/

namespace RtpStreamer

variable {P : Platform} {options : Options}
  {junk : Vector (Vector U8 kSlotPayloadBytes) kCapacity} {capacity : Capacity}
  {config : ReceiverConfig} {initial : Vector Frame capacity.size}

/-- The packets of the datagrams that parse. -/
def parsedPackets (order : ByteOrder) (datagrams : List (List U8)) : List Packet :=
  datagrams.filterMap fun datagram => (parse order datagram).map pushed

/-- The packet with which the receive thread waits for the mutex. -/
def ReceivePc.waiting : ReceivePc → List Packet
  | .locking (.packet packet _) => [packet]
  | .locking .idle | .receiving | .loadingDone | .exited => []

theorem parsedPackets_length (order : ByteOrder) (datagrams : List (List U8)) :
    (parsedPackets order datagrams).length +
      datagrams.countP (fun datagram => (parse order datagram).isNone) = datagrams.length := by
  induction datagrams with
  | nil => rfl
  | cons datagram datagrams ih =>
    unfold parsedPackets at ih ⊢
    rw [List.filterMap_cons, List.countP_cons]
    cases parse order datagram with
    | none =>
      simp only [Option.map_none, Option.isNone_none, if_true, List.length_cons]
      omega
    | some parsed =>
      simp only [Option.map_some, Option.isNone_some, Bool.false_eq_true, if_false, List.length_cons]
      omega

namespace ReceiverProcess

/-! ## The jitter buffer under its mutex -/

/-- A step either leaves the jitter buffer alone or makes one call on it. -/
def CallsBuffer (process : ReceiverProcess P capacity)
    (result : ReceiverProcess P capacity × Option ProcessEvent) : Prop :=
  match result.2.bind ProcessEvent.bufferCall with
  | none => result.1.jbuf = process.jbuf
  | some (call, returned) =>
    process.jbuf.returned call = returned ∧ result.1.jbuf = process.jbuf.next call

theorem receiveStep_buffer (process : ReceiverProcess P capacity) (read : SocketRead) :
    CallsBuffer process (process.receiveStep config read) := by
  unfold ReceiverProcess.receiveStep
  cases process.receive with
  | receiving =>
    dsimp only
    unfold ReceiverProcess.handleRead
    cases read.datagram with
    | none =>
      dsimp only
      split_ifs <;> rfl
    | some datagram =>
      dsimp only
      cases parse P.byteOrder (datagram.take kMaxDatagramBytes) <;> rfl
  | locking reception =>
    dsimp only
    split_ifs
    · rfl
    · cases reception <;> exact ⟨rfl, rfl⟩
  | loadingDone => rfl
  | exited => rfl

theorem playoutStep_buffer (process : ReceiverProcess P capacity) :
    CallsBuffer process (process.playoutStep config) := by
  unfold ReceiverProcess.playoutStep
  cases process.playout with
  | pulling now => exact ⟨rfl, rfl⟩
  | pushing now frame =>
    dsimp only
    split <;> rfl
  | waiting => rfl
  | countingUnderrun now => rfl
  | checking now => rfl
  | leaving => rfl
  | storingDone => rfl
  | exited => rfl

theorem step_buffer (config : ReceiverConfig) (process : ReceiverProcess P capacity) (move : ProcessMove) :
    CallsBuffer process (process.step config move) := by
  cases move with
  | receive read => exact receiveStep_buffer process read
  | playout => exact playoutStep_buffer process
  | main => exact (mainStep_keeps config process).jbuf

variable (options junk config initial) in
/-- The calls on the jitter buffer are a run of it, in the order in which they held its mutex. -/
theorem buffer_linearizable (moves : List ProcessMove) :
    let calls := bufferCalls ((processSystem P config options junk capacity initial).events moves)
    (jitterSystem P options junk).Legal calls ∧
      ReceiverProcess.jbuf ((processSystem P config options junk capacity initial).run moves) =
        (jitterSystem P options junk).run (calls.map Prod.fst) := by
  have hevents := DetSystem.events_observe (processSystem P config options junk capacity initial)
    ProcessEvent.bufferCall moves
  have hlinear := DetSystem.linearization
    (M := (processSystem P config options junk capacity initial).observe
      fun process move => ((processSystem P config options junk capacity initial).obs process move).bind
        ProcessEvent.bufferCall)
    (N := jitterSystem P options junk) (R := fun process jbuf => ReceiverProcess.jbuf process = jbuf) rfl
    (by
      intro process jbuf move hrel hobs
      have hstep := step_buffer config process move
      unfold CallsBuffer at hstep
      change ((ReceiverProcess.step config process move).2.bind _) = none at hobs
      rw [hobs] at hstep
      exact hstep.trans hrel)
    (by
      intro process jbuf move event hrel hobs
      subst hrel
      have hstep := step_buffer config process move
      unfold CallsBuffer at hstep
      change ((ReceiverProcess.step config process move).2.bind _) = some event at hobs
      rw [hobs] at hstep
      exact hstep)
    moves
  rw [show DetSystem.history _ moves = bufferCalls _ from hevents] at hlinear
  exact hlinear

/-! ## Datagrams -/

/-- Every datagram was handed over, is about to be, or was counted as malformed. -/
structure Received (process : ReceiverProcess P capacity) (datagrams : List (List U8))
    (calls : List Call) : Prop where
  packets : parsedPackets P.byteOrder datagrams = pushedPackets calls ++ process.receive.waiting
  malformed : process.malformedDropped =
    datagrams.countP fun datagram => (parse P.byteOrder datagram).isNone

/-- What a step adds to the datagrams and to the calls keeps the account. -/
def KeepsReceived (datagrams : List (List U8)) (calls : List Call)
    (result : ReceiverProcess P capacity × Option ProcessEvent) : Prop :=
  Received result.1 (datagrams ++ receivedDatagrams result.2.toList)
    (calls ++ (bufferCalls result.2.toList).map Prod.fst)

section Received

variable {process process' : ReceiverProcess P capacity} {datagrams : List (List U8)}
  {calls : List Call}

theorem Received.of_eq (h : Received process datagrams calls)
    (hwaiting : process'.receive.waiting = process.receive.waiting)
    (hmalformed : process'.malformedDropped = process.malformedDropped) :
    Received process' datagrams calls :=
  ⟨by rw [hwaiting, h.packets], by rw [hmalformed, h.malformed]⟩

/-- A step without a datagram and without a push. -/
theorem Received.quiet (h : Received process datagrams calls) {event : Option ProcessEvent}
    (hdatagram : receivedDatagrams event.toList = [])
    (hcall : pushedPackets ((bufferCalls event.toList).map Prod.fst) = [])
    (hwaiting : process'.receive.waiting = process.receive.waiting)
    (hmalformed : process'.malformedDropped = process.malformedDropped) :
    KeepsReceived datagrams calls (process', event) := by
  refine ⟨?_, ?_⟩
  · unfold pushedPackets at hcall
    show parsedPackets _ (datagrams ++ receivedDatagrams event.toList) = _
    rw [hdatagram, List.append_nil, h.packets, hwaiting]
    unfold pushedPackets
    rw [List.filterMap_append, hcall, List.append_nil]
  · show process'.malformedDropped = (datagrams ++ receivedDatagrams event.toList).countP _
    rw [hdatagram, List.append_nil, hmalformed, h.malformed]

theorem Received.handleRead (h : Received process datagrams calls) (hpc : process.receive = .receiving)
    (read : SocketRead) : KeepsReceived datagrams calls (process.handleRead config read) := by
  have hwaiting : process.receive.waiting = [] := by rw [hpc]; rfl
  have hpackets := h.packets
  rw [hwaiting, List.append_nil] at hpackets
  unfold ReceiverProcess.handleRead
  cases read.datagram with
  | none =>
    dsimp only
    split_ifs
    · exact h.quiet rfl rfl hwaiting.symm rfl
    · exact h.quiet rfl rfl hwaiting.symm rfl
  | some datagram =>
    dsimp only
    cases hparse : parse P.byteOrder (datagram.take kMaxDatagramBytes) with
    | none =>
      refine ⟨?_, ?_⟩
      · show parsedPackets _ (datagrams ++ [datagram.take kMaxDatagramBytes]) =
          pushedPackets (calls ++ []) ++ []
        unfold parsedPackets at hpackets ⊢
        rw [List.filterMap_append, hpackets, List.append_nil, List.append_nil]
        simp [hparse]
      · show process.malformedDropped + 1 = (datagrams ++ [datagram.take kMaxDatagramBytes]).countP _
        rw [List.countP_append, h.malformed]
        simp [hparse]
    | some parsed =>
      refine ⟨?_, ?_⟩
      · show parsedPackets _ (datagrams ++ [datagram.take kMaxDatagramBytes]) =
          pushedPackets (calls ++ []) ++ [pushed parsed]
        unfold parsedPackets at hpackets ⊢
        rw [List.filterMap_append, hpackets, List.append_nil]
        simp [hparse]
      · show process.malformedDropped = (datagrams ++ [datagram.take kMaxDatagramBytes]).countP _
        rw [List.countP_append, h.malformed]
        simp [hparse]

theorem Received.receiveStep (h : Received process datagrams calls) (read : SocketRead) :
    KeepsReceived datagrams calls (process.receiveStep config read) := by
  cases hpc : process.receive with
  | receiving =>
    have hstep : process.receiveStep config read = process.handleRead config read := by
      unfold ReceiverProcess.receiveStep
      rw [hpc]
    rw [hstep]
    exact h.handleRead hpc read
  | locking reception =>
    unfold ReceiverProcess.receiveStep
    rw [hpc]
    dsimp only
    split_ifs
    · exact h.quiet rfl rfl rfl rfl
    · cases reception with
      | idle => exact h.quiet rfl rfl (by rw [hpc]; rfl) rfl
      | packet packet arrival =>
        have hpackets := h.packets
        rw [hpc] at hpackets
        refine ⟨?_, ?_⟩
        · show parsedPackets _ (datagrams ++ []) =
            pushedPackets (calls ++ [Call.push packet arrival]) ++ []
          rw [List.append_nil, List.append_nil, hpackets, pushedPackets_push]
          rfl
        · show process.malformedDropped = (datagrams ++ []).countP _
          rw [List.append_nil, h.malformed]
  | loadingDone =>
    unfold ReceiverProcess.receiveStep
    rw [hpc]
    refine h.quiet rfl rfl ?_ rfl
    rw [hpc]
    cases process.playoutDone <;> rfl
  | exited =>
    unfold ReceiverProcess.receiveStep
    rw [hpc]
    exact h.quiet rfl rfl rfl rfl

theorem Received.playoutStep (h : Received process datagrams calls) :
    KeepsReceived datagrams calls (process.playoutStep config) := by
  unfold ReceiverProcess.playoutStep
  cases process.playout with
  | pushing now frame =>
    dsimp only
    split
    · exact h.quiet rfl rfl rfl rfl
    · exact h.quiet rfl rfl rfl rfl
  | pulling now => exact h.quiet rfl rfl rfl rfl
  | waiting => exact h.quiet rfl rfl rfl rfl
  | countingUnderrun now => exact h.quiet rfl rfl rfl rfl
  | checking now => exact h.quiet rfl rfl rfl rfl
  | leaving => exact h.quiet rfl rfl rfl rfl
  | storingDone => exact h.quiet rfl rfl rfl rfl
  | exited => exact h.quiet rfl rfl rfl rfl

theorem Received.step (h : Received process datagrams calls) (move : ProcessMove) :
    KeepsReceived datagrams calls (process.step config move) := by
  cases move with
  | receive read => exact h.receiveStep read
  | playout => exact h.playoutStep
  | main =>
    have hkeeps := mainStep_keeps config process
    exact h.quiet rfl rfl (by rw [hkeeps.receive]) hkeeps.malformedDropped

end Received

variable (options junk config initial) in
theorem handled_run (moves : List ProcessMove) :
    let events := (processSystem P config options junk capacity initial).events moves
    Received ((processSystem P config options junk capacity initial).run moves)
      (receivedDatagrams events) ((bufferCalls events).map Prod.fst) := by
  refine DetSystem.events_induction (M := processSystem P config options junk capacity initial)
    (P := fun events process =>
      Received process (receivedDatagrams events) ((bufferCalls events).map Prod.fst))
    ⟨rfl, rfl⟩ ?_ moves
  intro events process move h
  have hstep : KeepsReceived _ _ (process.step config move) := h.step move
  unfold KeepsReceived receivedDatagrams bufferCalls at hstep
  unfold receivedDatagrams bufferCalls
  rw [List.filterMap_append, List.filterMap_append, List.map_append]
  exact hstep

/-! ## The end of the process -/

/-- The report of a state in which nothing moves any more. -/
def reportOf (process : ReceiverProcess P capacity) : Report where
  numSamples := process.samples.length
  targetDepthMs := process.jbuf.estimate.targetDepthMs
  counts := process.jbuf.counts
  malformedDropped := process.malformedDropped
  underruns := process.underruns
  latencyMs := process.jbuf.latencySamplesMs
  depthHistoryMs := process.jbuf.estimate.targetDepthHistoryMs

/-- The file that the process writes. -/
def fileOf (config : ReceiverConfig) (process : ReceiverProcess P capacity) : Except String (List U8) :=
  Wav.write config.outputPath config.opens (BitVec.ofNat 32 kSampleRateHz) process.samples

/-- All three threads are behind their loops, the main thread has joined the other two. -/
structure Stopped (process : ReceiverProcess P capacity) : Prop where
  main : process.main = .exited
  receive : process.receive = .exited
  playout : process.playout = .exited

/-- What the main thread has seen behind its loop, and what it has done since. -/
def EndingKnows (config : ReceiverConfig) (process : ReceiverProcess P capacity) : Prop :=
  match process.ending with
  | .joiningReceive => process.report = none
  | .joiningPlayout => process.main = .exited ∧ process.receive = .exited ∧ process.report = none
  | .writing => process.Stopped ∧ process.report = none
  | .reporting =>
    process.Stopped ∧ process.file = some (process.fileOf config) ∧ config.opens = true
  | .exited =>
    process.Stopped ∧ process.file = some (process.fileOf config) ∧
      process.report = if config.opens then some process.reportOf else none

section Ending

variable {process : ReceiverProcess P capacity}

theorem receiveStep_exited (h : process.receive = .exited) (read : SocketRead) :
    (process.receiveStep config read).1 = process := by
  unfold ReceiverProcess.receiveStep
  rw [h]

theorem playoutStep_exited (h : process.playout = .exited) :
    (process.playoutStep config).1 = process := by
  unfold ReceiverProcess.playoutStep
  rw [h]

theorem EndingKnows.receiveStep (h : EndingKnows config process) (read : SocketRead) :
    EndingKnows config (process.receiveStep config read).1 := by
  by_cases hexited : process.receive = .exited
  · rw [receiveStep_exited hexited]
    exact h
  · -- only before the join does it move
    have hkeeps := receiveStep_keeps config process read
    unfold EndingKnows at h ⊢
    rw [hkeeps.ending]
    cases hpc : process.ending with
    | joiningReceive =>
      rw [hpc] at h
      exact hkeeps.report.trans h
    | joiningPlayout =>
      rw [hpc] at h
      exact absurd h.2.1 hexited
    | writing =>
      rw [hpc] at h
      exact absurd h.1.receive hexited
    | reporting =>
      rw [hpc] at h
      exact absurd h.1.receive hexited
    | exited =>
      rw [hpc] at h
      exact absurd h.1.receive hexited

theorem EndingKnows.playoutStep (h : EndingKnows config process) :
    EndingKnows config (process.playoutStep config).1 := by
  by_cases hexited : process.playout = .exited
  · rw [playoutStep_exited hexited]
    exact h
  · have hkeeps := playoutStep_keeps config process
    unfold EndingKnows at h ⊢
    rw [hkeeps.ending]
    cases hpc : process.ending with
    | joiningReceive =>
      rw [hpc] at h
      exact hkeeps.report.trans h
    | joiningPlayout =>
      rw [hpc] at h
      exact ⟨hkeeps.main.trans h.1, hkeeps.receive.trans h.2.1, hkeeps.report.trans h.2.2⟩
    | writing =>
      rw [hpc] at h
      exact absurd h.1.playout hexited
    | reporting =>
      rw [hpc] at h
      exact absurd h.1.playout hexited
    | exited =>
      rw [hpc] at h
      exact absurd h.1.playout hexited

/-- While the main thread is in its loop it has joined nothing. -/
theorem EndingKnows.of_looping (h : EndingKnows config process) (hmain : process.main ≠ .exited)
    {process' : ReceiverProcess P capacity} (hending : process'.ending = process.ending)
    (hreport : process'.report = process.report) : EndingKnows config process' := by
  unfold EndingKnows at h ⊢
  rw [hending]
  cases hpc : process.ending with
  | joiningReceive =>
    rw [hpc] at h
    exact hreport.trans h
  | joiningPlayout =>
    rw [hpc] at h
    exact absurd h.1 hmain
  | writing =>
    rw [hpc] at h
    exact absurd h.1.main hmain
  | reporting =>
    rw [hpc] at h
    exact absurd h.1.main hmain
  | exited =>
    rw [hpc] at h
    exact absurd h.1.main hmain

theorem popStep_ending (process : ReceiverProcess P capacity) (onEmpty : MainPc) :
    (process.popStep onEmpty).ending = process.ending ∧
      (process.popStep onEmpty).report = process.report := by
  unfold ReceiverProcess.popStep
  split <;> exact ⟨rfl, rfl⟩

theorem endingStep_joiningReceive (config : ReceiverConfig) (hpc : process.ending = .joiningReceive) :
    process.endingStep config = process ∨ process.receive = .exited ∧
      process.endingStep config = { process with ending := .joiningPlayout } := by
  unfold ReceiverProcess.endingStep
  rw [hpc]
  dsimp only
  split
  · exact Or.inr ⟨‹_›, rfl⟩
  · exact Or.inl rfl

theorem endingStep_joiningPlayout (config : ReceiverConfig) (hpc : process.ending = .joiningPlayout) :
    process.endingStep config = process ∨ process.playout = .exited ∧
      process.endingStep config = { process with ending := .writing } := by
  unfold ReceiverProcess.endingStep
  rw [hpc]
  dsimp only
  split
  · exact Or.inr ⟨‹_›, rfl⟩
  · exact Or.inl rfl

/-- The file is written, and the process goes on to its report if that succeeds. -/
theorem endingStep_writing (hpc : process.ending = .writing) :
    process.endingStep config =
      { process with
        file := some (process.fileOf config)
        ending := if config.opens then .reporting else .exited } := by
  unfold ReceiverProcess.endingStep fileOf Wav.write
  rw [hpc]
  cases config.opens <;> rfl

theorem endingStep_reporting (hpc : process.ending = .reporting) :
    process.endingStep config = { process with report := some process.reportOf, ending := .exited } := by
  unfold ReceiverProcess.endingStep reportOf
  rw [hpc]

theorem EndingKnows.endingStep (h : EndingKnows config process) (hmain : process.main = .exited) :
    EndingKnows config (process.endingStep config) := by
  cases hpc : process.ending with
  | joiningReceive =>
    have hknows := h
    unfold EndingKnows at hknows
    rw [hpc] at hknows
    rcases endingStep_joiningReceive config hpc with hstep | ⟨hreceive, hstep⟩
    · rwa [hstep]
    · rw [hstep]
      exact ⟨hmain, hreceive, hknows⟩
  | joiningPlayout =>
    have hknows := h
    unfold EndingKnows at hknows
    rw [hpc] at hknows
    obtain ⟨_, hreceive, hreport⟩ := hknows
    rcases endingStep_joiningPlayout config hpc with hstep | ⟨hplayout, hstep⟩
    · rwa [hstep]
    · rw [hstep]
      exact ⟨⟨hmain, hreceive, hplayout⟩, hreport⟩
  | writing =>
    unfold EndingKnows at h
    rw [hpc] at h
    obtain ⟨⟨_, hreceive, hplayout⟩, hreport⟩ := h
    rw [endingStep_writing hpc]
    cases hopens : config.opens with
    | true => exact ⟨⟨hmain, hreceive, hplayout⟩, rfl, hopens⟩
    | false => exact ⟨⟨hmain, hreceive, hplayout⟩, rfl, by rw [hopens]; exact hreport⟩
  | reporting =>
    unfold EndingKnows at h
    rw [hpc] at h
    obtain ⟨⟨_, hreceive, hplayout⟩, hfile, hopens⟩ := h
    rw [endingStep_reporting hpc]
    exact ⟨⟨hmain, hreceive, hplayout⟩, hfile, by rw [hopens]; rfl⟩
  | exited =>
    have hstep : process.endingStep config = process := by
      unfold ReceiverProcess.endingStep
      rw [hpc]
    rwa [hstep]

theorem EndingKnows.mainStep (h : EndingKnows config process) :
    EndingKnows config (process.mainStep config) := by
  unfold ReceiverProcess.mainStep
  cases hpc : process.main with
  | popping =>
    obtain ⟨hending, hreport⟩ := popStep_ending process .loadingDone
    exact h.of_looping (by rw [hpc]; decide) hending hreport
  | loadingDone => exact h.of_looping (by rw [hpc]; decide) rfl rfl
  | lastPop =>
    obtain ⟨hending, hreport⟩ := popStep_ending process .exited
    exact h.of_looping (by rw [hpc]; decide) hending hreport
  | exited => exact h.endingStep hpc

end Ending

variable (options junk config initial) in
theorem endingKnows_run (moves : List ProcessMove) :
    EndingKnows config ((processSystem P config options junk capacity initial).run moves) := by
  refine DetSystem.invariant (M := processSystem P config options junk capacity initial)
    (P := fun process => EndingKnows config process) rfl ?_ moves
  intro process move h
  cases move with
  | receive read => exact EndingKnows.receiveStep h read
  | playout => exact EndingKnows.playoutStep h
  | main => exact EndingKnows.mainStep h

/-! ## Frames -/

/-- The frames that the calls on the jitter buffer returned. -/
def producedFrames (events : List ProcessEvent) : List Frame := (bufferCalls events).filterMap Prod.snd

theorem producedFrames_append (events events' : List ProcessEvent) :
    producedFrames (events ++ events') = producedFrames events ++ producedFrames events' := by
  unfold producedFrames bufferCalls
  rw [List.filterMap_append, List.filterMap_append]

theorem framesAccepted_append (events events' : List ProcessEvent) :
    framesAccepted (events ++ events') = framesAccepted events ++ framesAccepted events' :=
  List.filterMap_append

/-- What the threads pull and push is what the process produces and pushes. -/
theorem happenings_frames (events : List ProcessEvent) (happenings : List (Option Happening))
    (h : events.filterMap ProcessEvent.happening = happenings.filterMap id) :
    producedFrames events = pulledFrames happenings ∧
      framesAccepted events = acceptedFrames happenings := by
  have hpulled : pulledFrames happenings =
      (happenings.filterMap id).filterMap fun | .pulled frame => some frame | .pushed _ _ => none := by
    unfold pulledFrames
    rw [List.filterMap_filterMap]
    congr 1
    funext happening
    rcases happening with _ | ⟨_ | _⟩ <;> rfl
  have haccepted : acceptedFrames happenings =
      (happenings.filterMap id).filterMap fun
        | .pushed frame true => some frame | .pushed _ false => none | .pulled _ => none := by
    unfold acceptedFrames
    rw [List.filterMap_filterMap]
    congr 1
    funext happening
    rcases happening with _ | ⟨_ | ⟨_, _ | _⟩⟩ <;> rfl
  rw [hpulled, haccepted, ← h]
  unfold producedFrames bufferCalls framesAccepted
  rw [List.filterMap_filterMap, List.filterMap_filterMap, List.filterMap_filterMap]
  constructor
  · congr 1
    funext event
    rcases event with _ | ⟨_, _ | _⟩ | ⟨_, _⟩ <;> rfl
  · congr 1
    funext event
    rcases event with _ | ⟨_, _ | _⟩ | ⟨_, _ | _⟩ <;> rfl

/-- The frames that entered the ring, and the one that is offered, were produced in this order. -/
def InOrder (process : ReceiverProcess P capacity) (events : List ProcessEvent) : Prop :=
  (framesAccepted events ++ process.playout.offered.toList).Sublist (producedFrames events)

theorem InOrder.quiet {process process' : ReceiverProcess P capacity} {events : List ProcessEvent}
    (h : InOrder process events) {event : Option ProcessEvent}
    (haccepted : framesAccepted event.toList = []) (hproduced : producedFrames event.toList = [])
    (hoffered : process'.playout.offered = process.playout.offered) :
    InOrder process' (events ++ event.toList) := by
  unfold InOrder
  rw [framesAccepted_append, producedFrames_append, haccepted, hproduced, List.append_nil,
    List.append_nil, hoffered]
  exact h

/-- A frame that is given up leaves the rest in order. -/
theorem InOrder.dropped {process process' : ReceiverProcess P capacity} {events : List ProcessEvent}
    (h : InOrder process events) {event : Option ProcessEvent}
    (haccepted : framesAccepted event.toList = []) (hproduced : producedFrames event.toList = [])
    (hoffered : process'.playout.offered = none) :
    InOrder process' (events ++ event.toList) := by
  unfold InOrder at h ⊢
  rw [framesAccepted_append, producedFrames_append, haccepted, hproduced, List.append_nil,
    List.append_nil, hoffered, Option.toList_none, List.append_nil]
  exact (List.sublist_append_left _ _).trans h

theorem InOrder.playoutStep {process : ReceiverProcess P capacity} {events : List ProcessEvent}
    (h : InOrder process events) :
    InOrder (process.playoutStep config).1
      (events ++ (process.playoutStep config).2.toList) := by
  cases hpc : process.playout with
  | pulling now =>
    rw [playoutStep_pulling hpc]
    unfold InOrder at h ⊢
    rw [hpc] at h
    rw [framesAccepted_append, producedFrames_append]
    cases (process.jbuf.tryPullDueFrame now).1 with
    | none =>
      show (_ ++ [] ++ []).Sublist (_ ++ [])
      rw [List.append_nil, List.append_nil (producedFrames events)]
      exact h
    | some frame =>
      show (_ ++ [] ++ [frame]).Sublist (_ ++ [frame])
      rw [List.append_nil]
      have hframes : (framesAccepted events).Sublist (producedFrames events) := by
        simpa [PlayoutPc.offered] using h
      exact hframes.append (List.Sublist.refl _)
  | pushing now frame =>
    have hframes : (framesAccepted events ++ [frame]).Sublist (producedFrames events) := by
      unfold InOrder at h
      rwa [hpc] at h
    rcases hring : process.ring.producerStep frame with ⟨ring, answer⟩
    rcases answer with _ | ⟨item, accepted | out⟩
    · rw [playoutStep_access hpc hring]
      exact h.quiet rfl rfl rfl
    · have hstep : process.playoutStep config =
          ({ process with
              ring := ring
              playout := if accepted then .checking now else .countingUnderrun now },
            some (.pushed frame accepted)) := by
        unfold ReceiverProcess.playoutStep
        rw [hpc]
        dsimp only
        rw [hring]
      rw [hstep]
      cases accepted with
      | true =>
        unfold InOrder
        rw [framesAccepted_append, producedFrames_append]
        show (_ ++ [frame] ++ []).Sublist (_ ++ [])
        rwa [List.append_nil, List.append_nil]
      | false => exact h.dropped rfl rfl rfl
    · have hstep : process.playoutStep config = ({ process with ring := ring }, none) := by
        unfold ReceiverProcess.playoutStep
        rw [hpc]
        dsimp only
        rw [hring]
      rw [hstep]
      exact h.quiet rfl rfl rfl
  | waiting =>
    unfold ReceiverProcess.playoutStep
    rw [hpc]
    exact h.quiet rfl rfl (by rw [hpc]; rfl)
  | countingUnderrun now =>
    unfold ReceiverProcess.playoutStep
    rw [hpc]
    exact h.quiet rfl rfl (by rw [hpc]; rfl)
  | checking now =>
    unfold ReceiverProcess.playoutStep
    rw [hpc]
    exact h.dropped rfl rfl (by dsimp only; split_ifs <;> rfl)
  | leaving =>
    unfold ReceiverProcess.playoutStep
    rw [hpc]
    exact h.dropped rfl rfl (by dsimp only; split_ifs <;> rfl)
  | storingDone =>
    unfold ReceiverProcess.playoutStep
    rw [hpc]
    exact h.quiet rfl rfl (by rw [hpc]; rfl)
  | exited =>
    unfold ReceiverProcess.playoutStep
    rw [hpc]
    exact h.quiet rfl rfl rfl

theorem receiveStep_frames (config : ReceiverConfig) (process : ReceiverProcess P capacity)
    (read : SocketRead) : framesAccepted (process.receiveStep config read).2.toList = [] ∧
      producedFrames (process.receiveStep config read).2.toList = [] := by
  unfold ReceiverProcess.receiveStep
  cases process.receive with
  | receiving =>
    dsimp only
    unfold ReceiverProcess.handleRead
    cases read.datagram with
    | none =>
      dsimp only
      split_ifs <;> exact ⟨rfl, rfl⟩
    | some datagram =>
      dsimp only
      cases parse P.byteOrder (datagram.take kMaxDatagramBytes) <;> exact ⟨rfl, rfl⟩
  | locking reception =>
    dsimp only
    split_ifs <;> exact ⟨rfl, rfl⟩
  | loadingDone => exact ⟨rfl, rfl⟩
  | exited => exact ⟨rfl, rfl⟩

theorem InOrder.step {process : ReceiverProcess P capacity} {events : List ProcessEvent}
    (h : InOrder process events) (move : ProcessMove) :
    InOrder (process.step config move).1 (events ++ (process.step config move).2.toList) := by
  cases move with
  | receive read =>
    obtain ⟨haccepted, hproduced⟩ := receiveStep_frames config process read
    exact h.quiet haccepted hproduced
      (congrArg PlayoutPc.offered (receiveStep_keeps config process read).playout)
  | playout => exact h.playoutStep
  | main => exact h.quiet rfl rfl (congrArg PlayoutPc.offered (mainStep_keeps config process).playout)

variable (options junk config initial)

theorem inOrder_run (moves : List ProcessMove) :
    InOrder ((processSystem P config options junk capacity initial).run moves)
      ((processSystem P config options junk capacity initial).events moves) :=
  DetSystem.events_induction (M := processSystem P config options junk capacity initial)
    (P := fun events process => InOrder process events) (List.Sublist.refl _)
    (fun _ _ move h => InOrder.step h move) moves

/-- Every frame that was produced is in the samples, in the ring, given up, or on its way. -/
theorem accounted_process (moves : List ProcessMove) :
    let events := (processSystem P config options junk capacity initial).events moves
    ∃ receiver : Receiver (jitterSource P options junk) (capacity.size - 1),
      Refines ((processSystem P config options junk capacity initial).run moves) receiver ∧
        receiver.Accounted (producedFrames events) (framesAccepted events) := by
  obtain ⟨threadMoves, hrefines, hevents⟩ :=
    process_refines options junk config initial moves
  obtain ⟨hproduced, haccepted⟩ := happenings_frames _ _ hevents
  refine ⟨_, hrefines, ?_⟩
  rw [hproduced, haccepted]
  exact Receiver.accounted_run (jitterSource P options junk) (capacity.size - 1) threadMoves

/-- The datagrams that were handed over, are about to be, and were malformed. -/
theorem received_of_handled {process : ReceiverProcess P capacity} {datagrams : List (List U8)}
    {calls : List Call} (hjbuf : process.jbuf = (jitterSystem P options junk).run calls)
    (h : Received process datagrams calls) :
    process.jbuf.counts.received + process.receive.waiting.length + process.malformedDropped =
      datagrams.length := by
  have hreceived : process.jbuf.counts.received = (pushedPackets calls).length := by
    rw [hjbuf]
    exact received_run options junk calls
  have hlength := parsedPackets_length P.byteOrder datagrams
  rw [h.packets, List.length_append] at hlength
  rw [hreceived, h.malformed, hlength]

/-- **The receive path.** The calls of the two threads take effect on the jitter buffer one after the other,
and every datagram was handed to it, in the order of reception, or counted as malformed; only the last
one may still wait for the mutex. -/
theorem datagrams_handled_once (moves : List ProcessMove) :
    let process : ReceiverProcess P capacity :=
      (processSystem P config options junk capacity initial).run moves
    let events := (processSystem P config options junk capacity initial).events moves
    let calls := (bufferCalls events).map Prod.fst
    (jitterSystem P options junk).trace calls = (bufferCalls events).map Prod.snd ∧
    process.jbuf = (jitterSystem P options junk).run calls ∧
    parsedPackets P.byteOrder (receivedDatagrams events) =
      pushedPackets calls ++ process.receive.waiting ∧
    process.jbuf.counts.received + process.receive.waiting.length + process.malformedDropped =
      (receivedDatagrams events).length := by
  intro process events calls
  obtain ⟨hlegal, hjbuf⟩ := buffer_linearizable (P := P) options junk config initial moves
  have hhandled : Received process (receivedDatagrams events) calls := handled_run options junk config initial moves
  exact ⟨hlegal, hjbuf, hhandled.packets, received_of_handled options junk hjbuf hhandled⟩

/-- A frame leaves the jitter buffer for every step of its cursor. -/
theorem producedFrames_of_legal {events : List ProcessEvent}
    (hlegal : (jitterSystem P options junk).Legal (bufferCalls events)) :
    (producedFrames events).length = (JitterBuffer.framesPlayed
      ((jitterSystem P options junk).run ((bufferCalls events).map Prod.fst))).toNat := by
  have hframes : producedFrames events = ((jitterSystem P options junk).trace
      ((bufferCalls events).map Prod.fst)).filterMap id := by
    rw [hlegal, List.filterMap_map]
    rfl
  rw [hframes, trace_frames, playout_length]
  exact (refRun_cursor options junk _).2

/-- What the process leaves behind. -/
structure Left (config : ReceiverConfig) (process : ReceiverProcess P capacity)
    (events : List ProcessEvent) : Prop where
  stopped : process.Stopped
  samples : process.samples = samplesOf (framesAccepted events)
  file : process.file = some (process.fileOf config)
  report : process.report = if config.opens then some process.reportOf else none
  counted : (framesAccepted events).length + process.underruns = (producedFrames events).length

theorem left_of_exited (moves : List ProcessMove)
    (hexited : ReceiverProcess.ending
      ((processSystem P config options junk capacity initial).run moves) = .exited) :
    Left config ((processSystem P config options junk capacity initial).run moves)
      ((processSystem P config options junk capacity initial).events moves) := by
  have hknows := endingKnows_run (P := P) options junk config initial moves
  obtain ⟨receiver, hrefines, haccounted⟩ := accounted_process (P := P) options junk config initial moves
  unfold EndingKnows at hknows
  rw [hexited] at hknows
  obtain ⟨hstopped, hfile, hreport⟩ := hknows
  refine ⟨hstopped, ?_, hfile, hreport, ?_⟩
  · rw [haccounted.delivered, (haccounted.exited (hrefines.main.trans hstopped.main)).2,
      hrefines.samples]
    exact (List.append_nil _).symm
  · have hcounted := haccounted.counted
    rw [hrefines.underruns, hrefines.playout.trans hstopped.playout] at hcounted
    exact hcounted.symm

/-- The accounts of a process that has left its calls and its datagrams in order. -/
theorem Left.accounts {process : ReceiverProcess P capacity} {events : List ProcessEvent}
    (h : Left config process events) (hlegal : (jitterSystem P options junk).Legal (bufferCalls events))
    (hjbuf : process.jbuf = (jitterSystem P options junk).run ((bufferCalls events).map Prod.fst))
    (hreceived : Received process (receivedDatagrams events) ((bufferCalls events).map Prod.fst))
    (hinOrder : InOrder process events) :
    let real := realFramesPlayed P options junk ((bufferCalls events).map Prod.fst)
    process.file = some (Wav.write config.outputPath config.opens (BitVec.ofNat 32 kSampleRateHz)
      (samplesOf (framesAccepted events))) ∧
    (framesAccepted events).Sublist (producedFrames events) ∧
    (config.opens = true → ∃ report, process.report = some report ∧
      (framesAccepted events).length + report.underruns = (producedFrames events).length ∧
      report.numSamples + kFrameSamples * report.underruns =
        kFrameSamples * (real + report.counts.lost) ∧
      report.counts.concealed = report.counts.lost ∧
      report.counts.received + report.malformedDropped = (receivedDatagrams events).length ∧
      report.counts.received = report.counts.lateDropped + report.counts.duplicate + real +
        process.jbuf.occupiedSlots) := by
  intro real
  obtain ⟨hstopped, hsamples, hfile, hreport, hcounted⟩ := h
  obtain ⟨hpackets, hframes, hplc⟩ : process.jbuf.Balanced real := by
    rw [hjbuf]
    exact JitterBuffer.balanced_run options junk _
  have hproduced : (producedFrames events).length = real + process.jbuf.counts.lost := by
    rw [producedFrames_of_legal options junk hlegal, ← hjbuf]
    exact hframes
  have hdatagrams := received_of_handled options junk hjbuf hreceived
  refine ⟨?_, ?_, fun hopens => ⟨process.reportOf, ?_, hcounted, ?_, hplc.symm, ?_, hpackets⟩⟩
  · rw [← hsamples]
    exact hfile
  · exact (List.sublist_append_left _ _).trans hinOrder
  · rw [if_pos hopens] at hreport
    exact hreport
  · show process.samples.length + kFrameSamples * process.underruns = _
    rw [hsamples, samplesOf_length, Nat.mul_comm, ← Nat.mul_add, hcounted, hproduced]
    rfl
  · rw [hstopped.receive] at hdatagrams
    exact hdatagrams

/-- **The exit.** The file holds the frames that entered the ring, which are those the jitter buffer
produced, in their order, less the underruns; and the report accounts for every frame and every datagram. -/
theorem exit_accounts_for_all (moves : List ProcessMove)
    (hexited : ReceiverProcess.ending
      ((processSystem P config options junk capacity initial).run moves) = .exited) :
    let process : ReceiverProcess P capacity :=
      (processSystem P config options junk capacity initial).run moves
    let events := (processSystem P config options junk capacity initial).events moves
    let real := realFramesPlayed P options junk ((bufferCalls events).map Prod.fst)
    process.file = some (Wav.write config.outputPath config.opens (BitVec.ofNat 32 kSampleRateHz)
      (samplesOf (framesAccepted events))) ∧
    (framesAccepted events).Sublist (producedFrames events) ∧
    (config.opens = true → ∃ report, process.report = some report ∧
      (framesAccepted events).length + report.underruns = (producedFrames events).length ∧
      report.numSamples + kFrameSamples * report.underruns =
        kFrameSamples * (real + report.counts.lost) ∧
      report.counts.concealed = report.counts.lost ∧
      report.counts.received + report.malformedDropped = (receivedDatagrams events).length ∧
      report.counts.received = report.counts.lateDropped + report.counts.duplicate + real +
        process.jbuf.occupiedSlots) := by
  intro process events real
  obtain ⟨hlegal, hjbuf⟩ := buffer_linearizable (P := P) options junk config initial moves
  exact (left_of_exited options junk config initial moves hexited).accounts options junk config hlegal hjbuf
    (handled_run options junk config initial moves) (inOrder_run options junk config initial moves)

/-- One datagram, then silence on the network, and a ring of two slots. -/
def shortSession (datagram : List U8) : List ProcessMove :=
  List.replicate 3 (.receive { datagram := some datagram, now := {} }) ++
    List.replicate 3 (.receive { datagram := none, now := { tvSec := 1 } }) ++
    List.replicate 9 .playout ++
    List.replicate 2 (.receive { datagram := none, now := {} }) ++ List.replicate 13 .main

def shortConfig : ReceiverConfig := { outputPath := "out.wav", processStart := {} }

def silentRing (capacity : Capacity) : Vector Frame capacity.size := Vector.replicate _ silence

def shortSystem (capacity : Capacity) : DetSystem ProcessMove (Option ProcessEvent) :=
  processSystem (exactPlatform .little fun _ sample => sample) shortConfig {}
    (Vector.replicate _ (Vector.replicate _ 0)) capacity (silentRing capacity)

/-- A packet of two samples. -/
def twoSamples : List U8 := [0x80, 0, 0, 1, 0, 0, 0, 0, 0, 0, 0, 0, 0xFF, 0xFF]

theorem exit_accounts_for_all_example :
    let system := shortSystem ⟨2, by decide, by decide⟩
    ∃ report, ReceiverProcess.report (system.run (shortSession twoSamples)) = some report ∧
      (framesAccepted (system.events (shortSession twoSamples))).length + report.underruns = 1 ∧
      report.counts.received + report.malformedDropped = 1 := by
  obtain ⟨_, _, hreport⟩ := exit_accounts_for_all (P := exactPlatform .little fun _ sample => sample) {}
    (Vector.replicate _ (Vector.replicate _ 0)) shortConfig (silentRing ⟨2, by decide, by decide⟩)
    (shortSession twoSamples) (by decide +kernel)
  obtain ⟨report, hsome, hframes, _, _, hdatagrams, _⟩ := hreport rfl
  exact ⟨report, hsome, hframes.trans (by decide +kernel), hdatagrams.trans (by decide +kernel)⟩

end ReceiverProcess

end RtpStreamer
