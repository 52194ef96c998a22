import RtpStreamer.Receiver.Process
import RtpStreamer.Ring.WeakRing

/-!
# The receiver in release/acquire memory

The process of `Process.lean` with the memory orders that `receiver.cpp` names: `playout_done` is stored
release and loaded acquire, `underruns` is counted relaxed, the ring is that of `WeakRing.lean`, and the
jitter buffer and `malformed_dropped` are ordinary variables, one behind `jbuf_mutex` and the other read
behind a join. A load may return an old value, and an access to an ordinary variable may race.

`WeakInterleavingProofs.lean` shows that with the newest values it does what the process of `Process.lean` does.
-/

namespace RtpStreamer

open ReleaseAcquire

/-- The threads of the process. -/
inductive ReceiverThread where
  | receive
  | playout
  | main
  deriving DecidableEq

instance : Fintype ReceiverThread where
  elems := {.receive, .playout, .main}
  complete := fun t => by cases t <;> decide

inductive ReceiverLock where
  | jbufMutex
  deriving DecidableEq

/-- The atomic variables other than those of the ring. -/
inductive ReceiverAtomic where
  | playoutDone
  | underruns
  deriving DecidableEq

/-- The ordinary variables that more than one thread accesses, other than the slots of the ring. -/
inductive ReceiverCell where
  | jbuf
  | malformedDropped
  deriving DecidableEq

abbrev ReceiverAtomic.Value : ReceiverAtomic → Type
  | .playoutDone => Bool
  | .underruns => ℕ

abbrev ReceiverCell.Content (P : Platform) : ReceiverCell → Type
  | .jbuf => JitterBuffer P
  | .malformedDropped => ℕ

abbrev ReceiverMemory (P : Platform) (capacity : Capacity) :=
  RingMemory ReceiverThread ReceiverLock Frame capacity ReceiverAtomic.Value (ReceiverCell.Content P)

/-- What the receive thread does next. It holds the mutex from `calling` to `unlocking`. -/
inductive WeakReceivePc where
  | receiving
  | countingMalformed
  | locking (reception : Reception)
  | calling (reception : Reception)
  | unlocking
  | loadingDone
  | exited

/-- What the playout thread does next. It holds the mutex from `pulling` to `unlocking`. -/
inductive WeakPlayoutPc (capacity : Capacity) where
  | waiting
  | locking (nowSamples : U32)
  | pulling (nowSamples : U32)
  | pushing (nowSamples : U32) (frame : Frame) (push : PushPc Frame capacity)
  | countingUnderrun (nowSamples : U32)
  | checking (nowSamples : U32)
  | leaving
  | unlocking (done : Bool)
  | storingDone
  | exited

/-- What the main thread does next. `unlocking` and `printing` have what it has copied of the buffer. -/
inductive WeakMainPc (P : Platform) (capacity : Capacity) where
  | popping (pop : PopPc Frame capacity)
  | loadingDone
  | lastPop (pop : PopPc Frame capacity)
  | joiningReceive
  | joiningPlayout
  | writing
  | locking
  | copying
  | unlocking (jbuf : JitterBuffer P)
  | printing (jbuf : JitterBuffer P)
  | exited

structure WeakProcess (P : Platform) (capacity : Capacity) where
  memory : ReceiverMemory P capacity
  lastActivity : Timespec
  deadline : Timespec
  receive : WeakReceivePc := .receiving
  playout : WeakPlayoutPc capacity := .waiting
  main : WeakMainPc P capacity := .popping .idle
  samples : List I16 := []
  file : Option (Except String (List U8)) := none
  report : Option Report := none

/-- Waits for the mutex. -/
def lockBuffer {P : Platform} {capacity : Capacity} {α : Type} (t : ReceiverThread)
    (m : ReceiverMemory P capacity) (before behind : α) : ReceiverMemory P capacity × α :=
  match m.holder .jbufMutex with
  | none => (m.lock t .jbufMutex, behind)
  | some _ => (m, before)

/-- A call on the jitter buffer. Of its reads and writes one each is enough to race. -/
def callBuffer {P : Platform} {capacity : Capacity} (t : ReceiverThread) (m : ReceiverMemory P capacity)
    (call : Call) : ReceiverMemory P capacity × Option Frame :=
  let (m, jbuf) := m.readCell t (.other .jbuf)
  (m.writeCell t (.other .jbuf) (JitterBuffer.next jbuf call), JitterBuffer.returned jbuf call)

/-- `jbuf.finished()`. -/
def bufferFinished {P : Platform} {capacity : Capacity} (t : ReceiverThread)
    (m : ReceiverMemory P capacity) : ReceiverMemory P capacity × Bool :=
  let (m, jbuf) := m.readCell t (.other .jbuf)
  (m, JitterBuffer.finished jbuf)

namespace WeakProcess

variable {P : Platform} {capacity : Capacity}

/-- The receive thread behind `socket.receive`. -/
def handleRead (config : ReceiverConfig) (process : WeakProcess P capacity) (read : SocketRead) :
    WeakProcess P capacity × Option ProcessEvent :=
  match read.datagram with
  | some datagram =>
    let data := datagram.take kMaxDatagramBytes
    let process := { process with lastActivity := read.now }
    match parse P.byteOrder data with
    | some parsed =>
      let packet : Packet := {
        sequenceNumber := parsed.header.sequenceNumber
        rtpTimestamp := parsed.header.timestamp
        payloadType := parsed.header.payloadType
        payload := parsed.payload }
      ({ process with receive := .locking (.packet packet (config.samplesAt read.now)) },
        some (.received data))
    | none => ({ process with receive := .countingMalformed }, some (.received data))
  | none =>
    if idleMs process.lastActivity read.now > config.idleTimeoutMs then
      ({ process with receive := .locking .idle }, none)
    else ({ process with receive := .loadingDone }, none)

def receiveStep (config : ReceiverConfig) (process : WeakProcess P capacity) (read : SocketRead)
    (pick : ℕ) : WeakProcess P capacity × Option ProcessEvent :=
  match process.receive with
  | .receiving => process.handleRead config read
  | .countingMalformed =>
    let (memory, count) := process.memory.readCell .receive (.other .malformedDropped)
    let memory := memory.writeCell .receive (.other .malformedDropped) ((count : ℕ) + 1)
    ({ process with memory := memory, receive := .loadingDone }, none)
  | .locking reception =>
    let (memory, receive) :=
      lockBuffer .receive process.memory (.locking reception) (.calling reception)
    ({ process with memory := memory, receive := receive }, none)
  | .calling reception =>
    let (memory, _) := callBuffer .receive process.memory reception.call
    ({ process with memory := memory, receive := .unlocking }, some (.called reception.call none))
  | .unlocking =>
    ({ process with memory := process.memory.unlock .receive .jbufMutex, receive := .loadingDone }, none)
  | .loadingDone =>
    let (memory, done) := process.memory.loadAcquire .receive (.other .playoutDone) pick
    ({ process with memory := memory, receive := if (done : Bool) then .exited else .receiving }, none)
  | .exited => (process, none)

def playoutStep (config : ReceiverConfig) (process : WeakProcess P capacity) (pick : ℕ) :
    WeakProcess P capacity × Option ProcessEvent :=
  match process.playout with
  | .waiting =>
    let deadline := nextDeadline process.deadline
    ({ process with deadline := deadline, playout := .locking (config.samplesAt deadline) }, none)
  | .locking nowSamples =>
    let (memory, playout) :=
      lockBuffer .playout process.memory (.locking nowSamples) (.pulling nowSamples)
    ({ process with memory := memory, playout := playout }, none)
  | .pulling nowSamples =>
    let (memory, out) := callBuffer .playout process.memory (.pull nowSamples)
    ({ process with
        memory := memory
        playout := match out with
          | some frame => .pushing nowSamples frame .idle
          | none => .leaving },
      some (.called (.pull nowSamples) out))
  | .pushing nowSamples frame push =>
    match pushStep .playout process.memory push frame pick with
    | (memory, _, some (_, .pushed accepted)) =>
      ({ process with
          memory := memory
          playout := if accepted then .checking nowSamples else .countingUnderrun nowSamples },
        some (.pushed frame accepted))
    | (memory, push, _) =>
      ({ process with memory := memory, playout := .pushing nowSamples frame push }, none)
  | .countingUnderrun nowSamples =>
    let memory := process.memory.modifyRelaxed .playout (.other .underruns) fun count => (count : ℕ) + 1
    ({ process with memory := memory, playout := .checking nowSamples }, none)
  | .checking nowSamples =>
    let (memory, finished) := bufferFinished .playout process.memory
    ({ process with
        memory := memory, playout := if finished then .leaving else .pulling nowSamples }, none)
  | .leaving =>
    let (memory, finished) := bufferFinished .playout process.memory
    ({ process with memory := memory, playout := .unlocking finished }, none)
  | .unlocking done =>
    ({ process with
        memory := process.memory.unlock .playout .jbufMutex
        playout := if done then .storingDone else .waiting }, none)
  | .storingDone =>
    ({ process with
        memory := process.memory.storeRelease .playout (.other .playoutDone) true
        playout := .exited }, none)
  | .exited => (process, none)

/-- One access of `ring.pop`, and what follows when it is the last one of the call. -/
def popStep (process : WeakProcess P capacity) (pop : PopPc Frame capacity) (pick : ℕ)
    (during : PopPc Frame capacity → WeakMainPc P capacity) (onEmpty : WeakMainPc P capacity) :
    WeakProcess P capacity :=
  match RtpStreamer.popStep .main process.memory pop pick with
  | (memory, _, some (_, .popped (some frame))) =>
    { process with
      memory := memory
      samples := process.samples ++ frame.toList
      main := .popping .idle }
  | (memory, _, some (_, .popped none)) => { process with memory := memory, main := onEmpty }
  | (memory, pop, _) => { process with memory := memory, main := during pop }

def mainStep (config : ReceiverConfig) (process : WeakProcess P capacity) (pick : ℕ) :
    WeakProcess P capacity :=
  match process.main with
  | .popping pop => process.popStep pop pick .popping .loadingDone
  | .loadingDone =>
    let (memory, done) := process.memory.loadAcquire .main (.other .playoutDone) pick
    { process with memory := memory, main := if (done : Bool) then .lastPop .idle else .popping .idle }
  | .lastPop pop => process.popStep pop pick .lastPop .joiningReceive
  | .joiningReceive =>
    match process.receive with
    | .exited => { process with memory := process.memory.join .main .receive, main := .joiningPlayout }
    | _ => process
  | .joiningPlayout =>
    match process.playout with
    | .exited => { process with memory := process.memory.join .main .playout, main := .writing }
    | _ => process
  | .writing =>
    let file := Wav.write config.outputPath config.opens (BitVec.ofNat 32 kSampleRateHz) process.samples
    { process with
      file := some file
      main := match file with
        | .ok _ => .locking
        | .error _ => .exited }
  | .locking =>
    let (memory, main) := lockBuffer .main process.memory .locking .copying
    { process with memory := memory, main := main }
  | .copying =>
    let (memory, jbuf) := process.memory.readCell .main (.other .jbuf)
    { process with memory := memory, main := .unlocking jbuf }
  | .unlocking jbuf =>
    { process with memory := process.memory.unlock .main .jbufMutex, main := .printing jbuf }
  | .printing jbuf =>
    let (memory, malformedDropped) := process.memory.readCell .main (.other .malformedDropped)
    -- a sequentially consistent load, of which only the acquire matters
    let (memory, underruns) := memory.loadAcquire .main (.other .underruns) pick
    { process with
      memory := memory
      report := some {
        numSamples := process.samples.length
        targetDepthMs := jbuf.estimate.targetDepthMs
        counts := jbuf.counts
        malformedDropped := malformedDropped
        underruns := underruns
        latencyMs := jbuf.latencySamplesMs
        depthHistoryMs := jbuf.estimate.targetDepthHistoryMs }
      main := .exited }
  | .exited => process

/-- The move of a thread, with the store that its load returns. -/
def step (config : ReceiverConfig) (process : WeakProcess P capacity) :
    ProcessMove × ℕ → WeakProcess P capacity × Option ProcessEvent
  | (.receive read, pick) => process.receiveStep config read pick
  | (.playout, pick) => process.playoutStep config pick
  | (.main, pick) => (process.mainStep config pick, none)

end WeakProcess

/-- What the other variables of the memory hold at the start. -/
def receiverValues : (e : ReceiverAtomic) → e.Value
  | .playoutDone => false
  | .underruns => (0 : ℕ)

def receiverCells (P : Platform) (options : Options)
    (junk : Vector (Vector U8 kSlotPayloadBytes) kCapacity) : (x : ReceiverCell) → x.Content P
  | .jbuf => JitterBuffer.fresh P options junk
  | .malformedDropped => (0 : ℕ)

/-- The process with its three threads. -/
def weakProcessSystem (P : Platform) (config : ReceiverConfig) (options : Options)
    (junk : Vector (Vector U8 kSlotPayloadBytes) kCapacity) (capacity : Capacity)
    (initial : Vector Frame capacity.size) : DetSystem (ProcessMove × ℕ) (Option ProcessEvent) where
  State := WeakProcess P capacity
  init := {
    memory := .initial (ringValues capacity receiverValues) (ringCells initial (receiverCells P options junk))
    lastActivity := config.processStart
    deadline := config.processStart }
  next := fun process move => (process.step config move).1
  obs := fun process move => (process.step config move).2

end RtpStreamer
