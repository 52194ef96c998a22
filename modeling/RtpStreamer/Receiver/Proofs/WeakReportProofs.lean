import RtpStreamer.Receiver.Proofs.ReportProofs
import RtpStreamer.Receiver.Proofs.WeakProcessProofs

/-!
# What the receiver leaves behind in release/acquire memory

The newest values of the variables make a process of `Process.lean`, and the threads see enough of them: the
calls on the jitter buffer are a run of it, no datagram is handled twice, and a process that exits has written
every frame that entered the ring and reports the newest values of all counters, whatever old values its loads
have returned before.
-/

namespace RtpStreamer

open BoundedFifo (pushedItems poppedItems)
open ReleaseAcquire ReleaseAcquire.Memory
open ReceiverProcess (CallsBuffer Received KeepsReceived InOrder producedFrames)

variable {P : Platform} {options : Options}
  {junk : Vector (Vector U8 kSlotPayloadBytes) kCapacity} {capacity : Capacity}
  {config : ReceiverConfig} {initial : Vector Frame capacity.size}

/-! ## The newest values -/

def WeakReceivePc.newest : WeakReceivePc → ReceivePc
  | .receiving => .receiving
  | .locking reception | .calling reception => .locking reception
  | .countingMalformed | .unlocking | .loadingDone => .loadingDone
  | .exited => .exited

def WeakPlayoutPc.newest : WeakPlayoutPc capacity → PlayoutPc
  | .waiting | .locking _ | .unlocking false => .waiting
  | .pulling nowSamples => .pulling nowSamples
  | .pushing nowSamples frame _ => .pushing nowSamples frame
  | .countingUnderrun nowSamples => .countingUnderrun nowSamples
  | .checking nowSamples => .checking nowSamples
  | .leaving => .leaving
  | .unlocking true | .storingDone => .storingDone
  | .exited => .exited

def WeakMainPc.newest : WeakMainPc P capacity → MainPc
  | .popping _ => .popping
  | .loadingDone => .loadingDone
  | .lastPop _ => .lastPop
  | .joiningReceive | .joiningPlayout | .writing | .locking | .copying | .unlocking _ | .printing _
  | .exited => .exited

def WeakMainPc.ending : WeakMainPc P capacity → EndingPc
  | .popping _ | .loadingDone | .lastPop _ | .joiningReceive => .joiningReceive
  | .joiningPlayout => .joiningPlayout
  | .writing => .writing
  | .locking | .copying | .unlocking _ | .printing _ => .reporting
  | .exited => .exited

namespace WeakProcess

/-- The number of malformed datagrams, with the one that is being counted. -/
def malformed (process : WeakProcess P capacity) : ℕ :=
  match process.receive with
  | .countingMalformed => process.memory.cells (.other .malformedDropped) + (1 : ℕ)
  | .receiving | .locking _ | .calling _ | .unlocking | .loadingDone | .exited =>
    process.memory.cells (.other .malformedDropped)

/-- The process with the newest values of its variables. -/
def newest (process : WeakProcess P capacity) : ReceiverProcess P capacity where
  jbuf := process.memory.cells (.other .jbuf)
  ring := {
    buffer := Vector.ofFn fun i => process.memory.cells (.slot i)
    head := (process.memory.history .head (process.memory.latest (.stored .head))).value
    tail := (process.memory.history .tail (process.memory.latest (.stored .tail))).value
    producer := process.playout.push
    consumer := process.main.pop }
  lastActivity := process.lastActivity
  deadline := process.deadline
  playoutDone := (process.memory.history (.other .playoutDone)
    (process.memory.latest (.stored (.other .playoutDone)))).value
  underruns := process.memory.latest (.stored (.other .underruns))
  malformedDropped := process.malformed
  receive := process.receive.newest
  playout := process.playout.newest
  main := process.main.newest
  ending := process.main.ending
  samples := process.samples
  file := process.file
  report := process.report

section Steps

variable {process : WeakProcess P capacity} {pushed : List Frame}

/-- What a thread leaves alone that neither pulls nor pushes a frame nor counts anything. -/
structure Quiet (process process' : WeakProcess P capacity) : Prop where
  jbuf : process'.newest.jbuf = process.newest.jbuf
  malformed : process'.newest.malformedDropped = process.newest.malformedDropped
  underruns : process'.newest.underruns = process.newest.underruns

theorem latest_readCell_stored (m : ReceiverMemory P capacity) (t : ReceiverThread)
    (n : RingCell capacity ReceiverCell) (a : RingAtomic ReceiverAtomic) :
    (m.readCell t n).1.latest (.stored a) = m.latest (.stored a) := by
  rw [latest_readCell, bump_of_ne (by simp)]

theorem malformed_of_cells {process process' : WeakProcess P capacity} {count : ℕ}
    (h : process.malformed = count)
    (hcells : process'.memory.cells (.other .malformedDropped) =
      process.memory.cells (.other .malformedDropped))
    (hreceive : process'.receive = process.receive) : process'.malformed = count := by
  unfold WeakProcess.malformed at h ⊢
  rw [hreceive, hcells]
  exact h

theorem Quiet.of_cells {process process' : WeakProcess P capacity}
    (hcells : ∀ x : ReceiverCell, process'.memory.cells (.other x) = process.memory.cells (.other x))
    (hlatest : process'.memory.latest (.stored (.other .underruns)) =
      process.memory.latest (.stored (.other .underruns)))
    (hreceive : process'.receive = process.receive) : Quiet process process' :=
  ⟨hcells .jbuf, malformed_of_cells rfl (hcells .malformedDropped) hreceive, hlatest⟩

/-- The main thread stores nothing but `tail_`. -/
theorem InSync.popStep_quiet (h : process.InSync pushed) {pop : PopPc Frame capacity}
    (hpop : process.main.pop = pop) (pick : ℕ) (during : PopPc Frame capacity → WeakMainPc P capacity)
    (onEmpty : WeakMainPc P capacity) :
    Quiet process (process.popStep pop pick during onEmpty) := by
  subst hpop
  have htouches : Touches process.memory (RtpStreamer.popStep .main process.memory process.main.pop pick).1
      OfRing := (h.synced.ring.popStep pick).touches
  have hcells (x : ReceiverCell) := htouches.cells (.other x) id
  have hlatest := htouches.latest (.stored (.other .underruns)) id
  unfold WeakProcess.popStep
  rcases popStep_cases .main process.memory process.main.pop pick with
    ⟨m', pop', hresult⟩ | ⟨m', out, hresult⟩
  · rw [hresult] at hcells hlatest ⊢
    exact Quiet.of_cells hcells hlatest rfl
  · rw [hresult] at hcells hlatest ⊢
    cases out with
    | none => exact Quiet.of_cells hcells hlatest rfl
    | some frame => exact Quiet.of_cells hcells hlatest rfl

theorem popStep_threads (process : WeakProcess P capacity) (pop : PopPc Frame capacity) (pick : ℕ)
    (during : PopPc Frame capacity → WeakMainPc P capacity) (onEmpty : WeakMainPc P capacity) :
    (process.popStep pop pick during onEmpty).receive = process.receive ∧
      (process.popStep pop pick during onEmpty).playout = process.playout := by
  unfold WeakProcess.popStep
  split
  · exact ⟨rfl, rfl⟩
  · exact ⟨rfl, rfl⟩
  · exact ⟨rfl, rfl⟩

theorem InSync.mainStep_quiet (h : process.InSync pushed) (config : ReceiverConfig) (pick : ℕ) :
    Quiet process (process.mainStep config pick) ∧
      (process.mainStep config pick).receive = process.receive ∧
      (process.mainStep config pick).playout = process.playout := by
  unfold WeakProcess.mainStep
  cases hpc : process.main with
  | popping pop => exact ⟨h.popStep_quiet (by rw [hpc]; rfl) pick _ _, popStep_threads ..⟩
  | lastPop pop => exact ⟨h.popStep_quiet (by rw [hpc]; rfl) pick _ _, popStep_threads ..⟩
  | loadingDone => exact ⟨Quiet.of_cells (fun _ => rfl) rfl rfl, rfl, rfl⟩
  | joiningReceive =>
    dsimp only
    split
    · exact ⟨Quiet.of_cells (fun _ => rfl) rfl rfl, rfl, rfl⟩
    · exact ⟨⟨rfl, rfl, rfl⟩, rfl, rfl⟩
  | joiningPlayout =>
    dsimp only
    split
    · exact ⟨Quiet.of_cells (fun _ => rfl) rfl rfl, rfl, rfl⟩
    · exact ⟨⟨rfl, rfl, rfl⟩, rfl, rfl⟩
  | writing => exact ⟨Quiet.of_cells (fun _ => rfl) rfl rfl, rfl, rfl⟩
  | locking =>
    dsimp only
    rcases lockBuffer_cases .main process.memory (.locking : WeakMainPc P capacity) .copying with
      hwaits | ⟨_, htakes⟩
    · rw [hwaits]
      exact ⟨Quiet.of_cells (fun _ => rfl) rfl rfl, rfl, rfl⟩
    · rw [htakes]
      exact ⟨Quiet.of_cells (fun _ => rfl) rfl rfl, rfl, rfl⟩
  | copying =>
    exact ⟨Quiet.of_cells (fun _ => rfl) (latest_readCell_stored process.memory .main (.other .jbuf) _) rfl,
      rfl, rfl⟩
  | unlocking jbuf => exact ⟨Quiet.of_cells (fun _ => rfl) rfl rfl, rfl, rfl⟩
  | printing jbuf =>
    exact ⟨Quiet.of_cells (fun _ => rfl)
      (latest_readCell_stored process.memory .main (.other .malformedDropped) _) rfl, rfl, rfl⟩
  | exited => exact ⟨⟨rfl, rfl, rfl⟩, rfl, rfl⟩

/-! ## The calls on the jitter buffer and the datagrams -/

theorem newest_handleRead (config : ReceiverConfig) (process : WeakProcess P capacity)
    (hpc : process.receive = .receiving) (read : SocketRead) :
    CallsBuffer process.newest
        ((process.handleRead config read).1.newest, (process.handleRead config read).2) ∧
      ((process.handleRead config read).1.newest.receive, (process.handleRead config read).1.malformed,
        (process.handleRead config read).2) =
      ((process.newest.handleRead config read).1.receive,
        (process.newest.handleRead config read).1.malformedDropped,
        (process.newest.handleRead config read).2) := by
  obtain ⟨m, lastActivity, deadline, receive, playout, main, samples, file, report⟩ := process
  obtain rfl : receive = .receiving := hpc
  set process : WeakProcess P capacity :=
    ⟨m, lastActivity, deadline, .receiving, playout, main, samples, file, report⟩
  cases hread : read.datagram with
  | none =>
    by_cases hidle : idleMs lastActivity read.now > config.idleTimeoutMs
    · have hweak : process.handleRead config read = ({ process with receive := .locking .idle }, none) := by
        unfold WeakProcess.handleRead
        rw [hread]
        exact if_pos hidle
      have hstrong : process.newest.handleRead config read =
          ({ process.newest with receive := .locking .idle }, none) := by
        unfold ReceiverProcess.handleRead
        rw [hread]
        exact if_pos hidle
      rw [hweak, hstrong]
      exact ⟨rfl, rfl⟩
    · have hweak : process.handleRead config read = ({ process with receive := .loadingDone }, none) := by
        unfold WeakProcess.handleRead
        rw [hread]
        exact if_neg hidle
      have hstrong : process.newest.handleRead config read =
          ({ process.newest with receive := .loadingDone }, none) := by
        unfold ReceiverProcess.handleRead
        rw [hread]
        exact if_neg hidle
      rw [hweak, hstrong]
      exact ⟨rfl, rfl⟩
  | some datagram =>
    unfold WeakProcess.handleRead ReceiverProcess.handleRead
    rw [hread]
    dsimp only
    cases parse P.byteOrder (datagram.take kMaxDatagramBytes) with
    | none => exact ⟨rfl, rfl⟩
    | some parsed => exact ⟨rfl, rfl⟩

theorem jbuf_callBuffer (t : ReceiverThread) (m : ReceiverMemory P capacity) (call : Call) :
    (callBuffer t m call).1.cells (.other .jbuf) = JitterBuffer.next (m.cells (.other .jbuf)) call :=
  cells_writeCell (m.readCell t (.other .jbuf)).1 t (.other .jbuf) _

theorem malformed_callBuffer (t : ReceiverThread) (m : ReceiverMemory P capacity) (call : Call) :
    (callBuffer t m call).1.cells (.other .malformedDropped) = m.cells (.other .malformedDropped) :=
  cells_writeCell_of_ne (m.readCell t (.other .jbuf)).1 t (n := .other .jbuf) _ (by simp)

variable {datagrams : List (List U8)} {calls : List Call}

/-- What a step of the receive thread does to the buffer and to the books about the datagrams. -/
theorem receiveStep_books (config : ReceiverConfig) (process : WeakProcess P capacity) (read : SocketRead)
    (pick : ℕ) (h : Received process.newest datagrams calls) :
    CallsBuffer process.newest
        ((process.receiveStep config read pick).1.newest, (process.receiveStep config read pick).2) ∧
      KeepsReceived datagrams calls
        ((process.receiveStep config read pick).1.newest, (process.receiveStep config read pick).2) := by
  unfold WeakProcess.receiveStep
  cases hpc : process.receive with
  | receiving =>
    obtain ⟨hcalls, hsame⟩ := newest_handleRead config process hpc read
    have hreceiving : process.newest.receive = .receiving := by
      show process.receive.newest = _
      rw [hpc]
      rfl
    have hkeeps : KeepsReceived datagrams calls (process.newest.handleRead config read) :=
      h.handleRead hreceiving read
    simp only [Prod.mk.injEq] at hsame
    obtain ⟨hreceive, hmalformed, hevent⟩ := hsame
    refine ⟨hcalls, ?_⟩
    unfold KeepsReceived at hkeeps ⊢
    dsimp only
    rw [hevent]
    exact hkeeps.of_eq (congrArg ReceivePc.waiting hreceive) hmalformed
  | countingMalformed =>
    have hwaiting : process.newest.receive.waiting = [] := by
      show process.receive.newest.waiting = _
      rw [hpc]
      rfl
    have hmalformed : process.malformed = process.memory.cells (.other .malformedDropped) + (1 : ℕ) := by
      unfold WeakProcess.malformed
      rw [hpc]
    refine ⟨?_, h.quiet rfl rfl hwaiting.symm ?_⟩
    · have hother : (.other .jbuf : RingCell capacity ReceiverCell) ≠ .other .malformedDropped := by simp
      exact cells_writeCell_of_ne (process.memory.readCell .receive (.other .malformedDropped)).1 .receive
        ((process.memory.cells (.other .malformedDropped) : ℕ) + 1) hother
    · refine Eq.trans ?_ hmalformed.symm
      exact cells_writeCell (process.memory.readCell .receive (.other .malformedDropped)).1 .receive
        (.other .malformedDropped) _
  | locking reception =>
    dsimp only
    have hmalformed : process.malformed = process.memory.cells (.other .malformedDropped) := by
      unfold WeakProcess.malformed
      rw [hpc]
    have hwaiting : process.newest.receive.waiting = (ReceivePc.locking reception).waiting := by
      show process.receive.newest.waiting = _
      rw [hpc]
      rfl
    rcases lockBuffer_cases .receive process.memory (WeakReceivePc.locking reception) (.calling reception) with
      hwaits | ⟨_, htakes⟩
    · rw [hwaits]
      exact ⟨rfl, h.quiet rfl rfl hwaiting.symm hmalformed.symm⟩
    · rw [htakes]
      exact ⟨rfl, h.quiet rfl rfl hwaiting.symm hmalformed.symm⟩
  | calling reception =>
    have hmalformed : process.malformed = process.memory.cells (.other .malformedDropped) := by
      unfold WeakProcess.malformed
      rw [hpc]
    have hwaiting : process.newest.receive.waiting = (ReceivePc.locking reception).waiting := by
      show process.receive.newest.waiting = _
      rw [hpc]
      rfl
    refine ⟨⟨?_, jbuf_callBuffer .receive process.memory reception.call⟩, ?_⟩
    · cases reception <;> rfl
    · cases reception with
      | idle =>
        have hsame := malformed_callBuffer .receive process.memory Reception.idle.call
        exact h.quiet rfl rfl hwaiting.symm (hsame.trans hmalformed.symm)
      | packet packet arrival =>
        have hpackets := h.packets
        rw [hwaiting] at hpackets
        refine ⟨?_, ?_⟩
        · show parsedPackets _ (datagrams ++ []) = pushedPackets (calls ++ [Call.push packet arrival]) ++ []
          rw [List.append_nil, List.append_nil, hpackets, pushedPackets_push]
          rfl
        · rw [show receivedDatagrams _ = [] from rfl, List.append_nil, ← h.malformed]
          exact (malformed_callBuffer .receive process.memory (Call.push packet arrival)).trans
            hmalformed.symm
  | unlocking =>
    refine ⟨rfl, h.quiet rfl rfl ?_ ?_⟩
    · show _ = process.receive.newest.waiting
      rw [hpc]
      rfl
    · show _ = process.malformed
      unfold WeakProcess.malformed
      rw [hpc]
      rfl
  | loadingDone =>
    dsimp only
    have hwaiting : process.newest.receive.waiting = [] := by
      show process.receive.newest.waiting = _
      rw [hpc]
      rfl
    have hmalformed : process.malformed = process.memory.cells (.other .malformedDropped) := by
      unfold WeakProcess.malformed
      rw [hpc]
    split_ifs
    · exact ⟨rfl, h.quiet rfl rfl hwaiting.symm hmalformed.symm⟩
    · exact ⟨rfl, h.quiet rfl rfl hwaiting.symm hmalformed.symm⟩
  | exited => exact ⟨rfl, h.quiet rfl rfl rfl rfl⟩

theorem malformed_eq {process process' : WeakProcess P capacity}
    (hcell : process'.memory.cells (.other .malformedDropped) =
      process.memory.cells (.other .malformedDropped)) (hreceive : process'.receive = process.receive) :
    process'.malformed = process.malformed := by
  unfold WeakProcess.malformed
  rw [hreceive]
  cases process.receive with
  | countingMalformed => exact congrArg (fun count : ℕ => count + 1) hcell
  | receiving | locking | calling | unlocking | loadingDone | exited => exact hcell

/-- What a step of the playout thread does to the buffer and to the books about the datagrams. -/
theorem InSync.playoutStep_books (h : process.InSync pushed) (config : ReceiverConfig) (pick : ℕ)
    (hreceived : Received process.newest datagrams calls) :
    CallsBuffer process.newest
        ((process.playoutStep config pick).1.newest, (process.playoutStep config pick).2) ∧
      KeepsReceived datagrams calls
        ((process.playoutStep config pick).1.newest, (process.playoutStep config pick).2) := by
  unfold WeakProcess.playoutStep
  cases hpc : process.playout with
  | pulling nowSamples =>
    refine ⟨⟨rfl, jbuf_callBuffer .playout process.memory (.pull nowSamples)⟩, hreceived.quiet rfl rfl rfl ?_⟩
    exact malformed_eq (malformed_callBuffer .playout process.memory (.pull nowSamples)) rfl
  | pushing nowSamples frame push =>
    have hpush : process.position.push = push := by
      show process.playout.push = push
      rw [hpc]
      rfl
    have htouches : Touches process.memory (RtpStreamer.pushStep .playout process.memory push frame pick).1
        OfRing := by
      rw [← hpush]
      exact (h.synced.ring.pushStep frame pick).touches
    have hjbuf := htouches.cells (.other .jbuf) id
    have hmalformed := htouches.cells (.other .malformedDropped) id
    dsimp only
    split
    · rename_i hresult
      rw [hresult] at hjbuf hmalformed
      exact ⟨hjbuf, hreceived.quiet rfl rfl rfl (malformed_eq hmalformed rfl)⟩
    · rename_i hresult
      rw [hresult] at hjbuf hmalformed
      exact ⟨hjbuf, hreceived.quiet rfl rfl rfl (malformed_eq hmalformed rfl)⟩
  | locking nowSamples =>
    dsimp only
    rcases lockBuffer_cases .playout process.memory (.locking nowSamples : WeakPlayoutPc capacity)
      (.pulling nowSamples) with hwaits | ⟨_, htakes⟩
    · rw [hwaits]
      exact ⟨rfl, hreceived.quiet rfl rfl rfl rfl⟩
    · rw [htakes]
      exact ⟨rfl, hreceived.quiet rfl rfl rfl rfl⟩
  | waiting => exact ⟨rfl, hreceived.quiet rfl rfl rfl rfl⟩
  | countingUnderrun nowSamples => exact ⟨rfl, hreceived.quiet rfl rfl rfl rfl⟩
  | checking nowSamples => exact ⟨rfl, hreceived.quiet rfl rfl rfl rfl⟩
  | leaving => exact ⟨rfl, hreceived.quiet rfl rfl rfl rfl⟩
  | unlocking done => exact ⟨rfl, hreceived.quiet rfl rfl rfl rfl⟩
  | storingDone => exact ⟨rfl, hreceived.quiet rfl rfl rfl rfl⟩
  | exited => exact ⟨rfl, hreceived.quiet rfl rfl rfl rfl⟩

theorem InSync.step_books (h : process.InSync pushed) (config : ReceiverConfig) (move : ProcessMove × ℕ)
    (hreceived : Received process.newest datagrams calls) :
    CallsBuffer process.newest ((process.step config move).1.newest, (process.step config move).2) ∧
      KeepsReceived datagrams calls
        ((process.step config move).1.newest, (process.step config move).2) := by
  obtain ⟨move, pick⟩ := move
  cases move with
  | receive read => exact receiveStep_books config process read pick hreceived
  | playout => exact h.playoutStep_books config pick hreceived
  | main =>
    obtain ⟨hquiet, hreceive, _⟩ := h.mainStep_quiet config pick
    exact ⟨hquiet.jbuf, hreceived.quiet rfl rfl
      (congrArg (fun receive => ReceivePc.waiting (WeakReceivePc.newest receive)) hreceive) hquiet.malformed⟩

end Steps

/-- One more call on the jitter buffer is one more step of its run. -/
theorem legal_step {process process' : ReceiverProcess P capacity} {events : List ProcessEvent}
    {event : Option ProcessEvent} (hlegal : (jitterSystem P options junk).Legal (bufferCalls events))
    (hjbuf : process.jbuf = (jitterSystem P options junk).run ((bufferCalls events).map Prod.fst))
    (hcalls : CallsBuffer process (process', event)) :
    (jitterSystem P options junk).Legal (bufferCalls (events ++ event.toList)) ∧
      process'.jbuf = (jitterSystem P options junk).run
        ((bufferCalls (events ++ event.toList)).map Prod.fst) := by
  have hmore : bufferCalls (events ++ event.toList) =
      bufferCalls events ++ (event.bind ProcessEvent.bufferCall).toList := by
    unfold bufferCalls
    rw [List.filterMap_append]
    cases event with
    | none => rfl
    | some event => cases event <;> rfl
  rw [hmore]
  unfold CallsBuffer at hcalls
  cases hcall : event.bind ProcessEvent.bufferCall with
  | none =>
    rw [hcall] at hcalls
    rw [Option.toList_none, List.append_nil]
    exact ⟨hlegal, hcalls.trans hjbuf⟩
  | some call =>
    obtain ⟨call, returned⟩ := call
    rw [hcall] at hcalls
    obtain ⟨hreturned, hnext⟩ := hcalls
    rw [hjbuf] at hreturned hnext
    rw [Option.toList_some, DetSystem.legal_snoc]
    refine ⟨⟨hlegal, hreturned⟩, ?_⟩
    rw [List.map_append, List.map_singleton, DetSystem.run_snoc]
    exact hnext

variable (options junk config initial)

/-- The order of the accesses, the buffer, and the books about the datagrams, behind a whole run. -/
theorem books_run (moves : List (ProcessMove × ℕ)) :
    let process : WeakProcess P capacity :=
      (weakProcessSystem P config options junk capacity initial).run moves
    let events := (weakProcessSystem P config options junk capacity initial).events moves
    process.InSync (framesAccepted events) ∧
      ((jitterSystem P options junk).Legal (bufferCalls events) ∧
        process.newest.jbuf = (jitterSystem P options junk).run ((bufferCalls events).map Prod.fst)) ∧
      Received process.newest (receivedDatagrams events) ((bufferCalls events).map Prod.fst) := by
  intro process events
  refine ⟨inSync_run P config options junk initial moves, ?_⟩
  refine DetSystem.run_induction (M := weakProcessSystem P config options junk capacity initial)
    (P := fun moves process =>
      ((jitterSystem P options junk).Legal
          (bufferCalls ((weakProcessSystem P config options junk capacity initial).events moves)) ∧
        (newest process).jbuf = (jitterSystem P options junk).run ((bufferCalls
          ((weakProcessSystem P config options junk capacity initial).events moves)).map Prod.fst)) ∧
      Received (newest process)
        (receivedDatagrams ((weakProcessSystem P config options junk capacity initial).events moves))
        ((bufferCalls ((weakProcessSystem P config options junk capacity initial).events moves)).map Prod.fst))
    ⟨⟨rfl, rfl⟩, rfl, rfl⟩ ?_ moves
  rintro moves move ⟨⟨hlegal, hjbuf⟩, hreceived⟩
  obtain ⟨hcalls, hkeeps⟩ := (inSync_run P config options junk initial moves).step_books config move hreceived
  rw [DetSystem.events_snoc]
  refine ⟨legal_step hlegal hjbuf hcalls, ?_⟩
  unfold KeepsReceived receivedDatagrams bufferCalls at hkeeps
  unfold receivedDatagrams bufferCalls
  rw [List.filterMap_append, List.filterMap_append, List.map_append]
  exact hkeeps

/-- **No data race.** Whatever the schedule and whatever old values the loads return, no access of the three
threads races; the calls on the jitter buffer are a run of it, in the order in which they held the mutex; and
every datagram has been pushed once, in its turn, or counted as malformed. -/
theorem no_data_race (moves : List (ProcessMove × ℕ)) :
    let process : WeakProcess P capacity :=
      (weakProcessSystem P config options junk capacity initial).run moves
    let events := (weakProcessSystem P config options junk capacity initial).events moves
    let calls := (bufferCalls events).map Prod.fst
    process.memory.racy = false ∧
    (jitterSystem P options junk).trace calls = (bufferCalls events).map Prod.snd ∧
    process.memory.cells (.other .jbuf) = (jitterSystem P options junk).run calls ∧
    parsedPackets P.byteOrder (receivedDatagrams events) =
      pushedPackets calls ++ process.receive.newest.waiting ∧
    process.malformed =
      (receivedDatagrams events).countP fun datagram => (parse P.byteOrder datagram).isNone := by
  intro process events calls
  obtain ⟨hsync, ⟨hlegal, hjbuf⟩, hreceived⟩ := books_run (P := P) options junk config initial moves
  exact ⟨hsync.synced.racy, hlegal, hjbuf, hreceived.packets, hreceived.malformed⟩

end WeakProcess

end RtpStreamer
