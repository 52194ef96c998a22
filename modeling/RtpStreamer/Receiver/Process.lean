import RtpStreamer.Receiver.SampleClock
import RtpStreamer.Receiver.Threads
import RtpStreamer.Ring.SpscRing
import RtpStreamer.Sender.Sender
import RtpStreamer.Wav.Wav

/-!
# The receiver as a process

`main` of `receiver.cpp` behind its arguments: the receive thread with its socket and its idle timeout, the
playout thread, and the main thread, which drains the ring, joins the other two, writes the file and
reports the counters. A step is one access to what the threads share: to the ring (one load or store of an
index, or one slot), to an atomic, or to the jitter buffer under its mutex.

Where `Threads.lean` takes the ring as a queue and the receive thread as what it does to the buffer, this
is the process itself; `ProcessProofs.lean` shows that it refines the former.
-/

namespace RtpStreamer

/-- The arguments of the process, and what it finds when it starts. -/
structure ReceiverConfig where
  outputPath : String
  idleTimeoutMs : Int := 500
  processStart : Timespec
  /-- Whether the output file can be opened. -/
  opens : Bool := true

/-- `samples_since(process_start, now)`, and 0 where its signed arithmetic would overflow. -/
def ReceiverConfig.samplesAt (config : ReceiverConfig) (now : Timespec) : U32 :=
  (samplesSince config.processStart now).getD 0

/-- `add_millis(deadline, kFrameDurationMs)`. -/
def nextDeadline (deadline : Timespec) : Timespec :=
  (addMillis deadline (BitVec.ofNat 64 kFrameDurationMs)).getD deadline

/-- What `socket.receive` returns, `none` when it times out, and the clock that is read behind it. -/
structure SocketRead where
  datagram : Option (List U8)
  now : Timespec

/-- What the receive thread does next. -/
inductive ReceivePc where
  | receiving
  /-- It waits for the mutex. -/
  | locking (reception : Reception)
  | loadingDone
  | exited

/-- What the main thread does next behind its loop. -/
inductive EndingPc where
  | joiningReceive
  | joiningPlayout
  | writing
  | reporting
  | exited
  deriving DecidableEq

/-- What the process prints at its end. The lists are those of `--collect-stats`. -/
structure Report where
  numSamples : Nat
  targetDepthMs : Int
  counts : Counts
  malformedDropped : Nat
  underruns : Nat
  latencyMs : List U32
  depthHistoryMs : List Int

structure ReceiverProcess (P : Platform) (capacity : Capacity) where
  jbuf : JitterBuffer P
  ring : SpscRing Frame capacity
  lastActivity : Timespec
  /-- The absolute time at which the playout thread last woke up. -/
  deadline : Timespec
  playoutDone : Bool := false
  underruns : Nat := 0
  malformedDropped : Nat := 0
  receive : ReceivePc := .receiving
  playout : PlayoutPc := .waiting
  main : MainPc := .popping
  ending : EndingPc := .joiningReceive
  samples : List I16 := []
  file : Option (Except String (List U8)) := none
  report : Option Report := none

/-- The thread that moves; the receive thread with what it finds when it reads its socket. -/
inductive ProcessMove where
  | receive (read : SocketRead)
  | playout
  | main

/-- A datagram that `socket.receive` returned, a call on the jitter buffer with the frame it produced, and
a finished `ring.push`. -/
inductive ProcessEvent where
  | received (datagram : List U8)
  | called (call : Call) (returned : Option Frame)
  | pushed (frame : Frame) (accepted : Bool)

/-- `idle_ms`. -/
def idleMs (lastActivity now : Timespec) : Int :=
  (now.tvSec.toInt - lastActivity.tvSec.toInt) * 1000 +
    (now.tvNsec.toInt - lastActivity.tvNsec.toInt).tdiv 1000000

/-- The call on the jitter buffer. -/
def Reception.call : Reception → Call
  | .packet received arrivalSamples => .push received arrivalSamples
  | .idle => .markStreamEnded

namespace ReceiverProcess

variable {P : Platform} {capacity : Capacity}

/-- The receive thread behind `socket.receive`. The socket fills a buffer of `kMaxDatagramBytes`. -/
def handleRead (config : ReceiverConfig) (process : ReceiverProcess P capacity) (read : SocketRead) :
    ReceiverProcess P capacity × Option ProcessEvent :=
  match read.datagram with
  | some datagram =>
    let data := datagram.take kMaxDatagramBytes
    let process := { process with lastActivity := read.now }
    match parse P.byteOrder data with
    | some parsed =>
      let packet : Packet := {
        sequenceNumber := parsed.header.sequenceNumber
        rtpTimestamp := parsed.header.timestamp
        payloadType := parsed.header.payloadType
        payload := parsed.payload }
      ({ process with receive := .locking (.packet packet (config.samplesAt read.now)) },
        some (.received data))
    | none =>
      ({ process with
          malformedDropped := process.malformedDropped + 1
          receive := .loadingDone },
        some (.received data))
  | none =>
    if idleMs process.lastActivity read.now > config.idleTimeoutMs then
      ({ process with receive := .locking .idle }, none)
    else ({ process with receive := .loadingDone }, none)

def receiveStep (config : ReceiverConfig) (process : ReceiverProcess P capacity) (read : SocketRead) :
    ReceiverProcess P capacity × Option ProcessEvent :=
  match process.receive with
  | .receiving => process.handleRead config read
  | .locking reception =>
    if process.playout.holdsMutex then (process, none)
    else
      ({ process with jbuf := process.jbuf.next reception.call, receive := .loadingDone },
        some (.called reception.call none))
  | .loadingDone =>
    ({ process with receive := if process.playoutDone then .exited else .receiving }, none)
  | .exited => (process, none)

def playoutStep (config : ReceiverConfig) (process : ReceiverProcess P capacity) :
    ReceiverProcess P capacity × Option ProcessEvent :=
  match process.playout with
  | .waiting =>
    let deadline := nextDeadline process.deadline
    ({ process with deadline := deadline, playout := .pulling (config.samplesAt deadline) }, none)
  | .pulling nowSamples =>
    let (out, jbuf) := process.jbuf.tryPullDueFrame nowSamples
    ({ process with
        jbuf := jbuf
        playout := match out with
          | some frame => .pushing nowSamples frame
          | none => .leaving },
      some (.called (.pull nowSamples) out))
  | .pushing nowSamples frame =>
    match process.ring.producerStep frame with
    | (ring, some (_, .pushed accepted)) =>
      ({ process with
          ring := ring
          playout := if accepted then .checking nowSamples else .countingUnderrun nowSamples },
        some (.pushed frame accepted))
    | (ring, _) => ({ process with ring := ring }, none)
  | .countingUnderrun nowSamples =>
    ({ process with underruns := process.underruns + 1, playout := .checking nowSamples }, none)
  | .checking nowSamples =>
    ({ process with
        playout := if process.jbuf.finished then .leaving else .pulling nowSamples }, none)
  | .leaving =>
    ({ process with
        playout := if process.jbuf.finished then .storingDone else .waiting }, none)
  | .storingDone => ({ process with playoutDone := true, playout := .exited }, none)
  | .exited => (process, none)

/-- One access of `ring.pop`, and what follows when it is the last one of the call. -/
def popStep (process : ReceiverProcess P capacity) (onEmpty : MainPc) : ReceiverProcess P capacity :=
  match process.ring.consumerStep with
  | (ring, some (_, .popped (some frame))) =>
    { process with
      ring := ring
      samples := process.samples ++ frame.toList
      main := .popping }
  | (ring, some (_, .popped none)) => { process with ring := ring, main := onEmpty }
  | (ring, _) => { process with ring := ring }

def endingStep (config : ReceiverConfig) (process : ReceiverProcess P capacity) :
    ReceiverProcess P capacity :=
  match process.ending with
  | .joiningReceive =>
    match process.receive with
    | .exited => { process with ending := .joiningPlayout }
    | _ => process
  | .joiningPlayout =>
    match process.playout with
    | .exited => { process with ending := .writing }
    | _ => process
  | .writing =>
    let file := Wav.write config.outputPath config.opens (BitVec.ofNat 32 kSampleRateHz) process.samples
    { process with
      file := some file
      ending := match file with
        | .ok _ => .reporting
        | .error _ => .exited }
  | .reporting =>
    { process with
      report := some {
        numSamples := process.samples.length
        targetDepthMs := process.jbuf.estimate.targetDepthMs
        counts := process.jbuf.counts
        malformedDropped := process.malformedDropped
        underruns := process.underruns
        latencyMs := process.jbuf.latencySamplesMs
        depthHistoryMs := process.jbuf.estimate.targetDepthHistoryMs }
      ending := .exited }
  | .exited => process

def mainStep (config : ReceiverConfig) (process : ReceiverProcess P capacity) :
    ReceiverProcess P capacity :=
  match process.main with
  | .popping => process.popStep .loadingDone
  | .loadingDone => { process with main := if process.playoutDone then .lastPop else .popping }
  | .lastPop => process.popStep .exited
  | .exited => process.endingStep config

def step (config : ReceiverConfig) (process : ReceiverProcess P capacity) :
    ProcessMove → ReceiverProcess P capacity × Option ProcessEvent
  | .receive read => process.receiveStep config read
  | .playout => process.playoutStep config
  | .main => (process.mainStep config, none)

end ReceiverProcess

/-- The process with its three threads. `junk` and `initial` are what the slots of the jitter buffer and of
the ring hold at the start. -/
def processSystem (P : Platform) (config : ReceiverConfig) (options : Options)
    (junk : Vector (Vector U8 kSlotPayloadBytes) kCapacity) (capacity : Capacity)
    (initial : Vector Frame capacity.size) : DetSystem ProcessMove (Option ProcessEvent) where
  State := ReceiverProcess P capacity
  init := {
    jbuf := JitterBuffer.fresh P options junk
    ring := { buffer := initial }
    lastActivity := config.processStart
    deadline := config.processStart }
  next := fun process move => (process.step config move).1
  obs := fun process move => (process.step config move).2

/-! ## What a run has done -/

namespace ProcessEvent

def datagram : ProcessEvent → Option (List U8)
  | .received datagram => some datagram
  | .called _ _ | .pushed _ _ => none

def bufferCall : ProcessEvent → Option (Call × Option Frame)
  | .called call returned => some (call, returned)
  | .received _ | .pushed _ _ => none

def acceptedFrame : ProcessEvent → Option Frame
  | .pushed frame true => some frame
  | .pushed _ false | .received _ | .called _ _ => none

end ProcessEvent

/-- The datagrams that were received, cut to the size of the buffer. -/
def receivedDatagrams (events : List ProcessEvent) : List (List U8) :=
  events.filterMap ProcessEvent.datagram

/-- The calls on the jitter buffer, in the order in which they held its mutex, with what they returned. -/
def bufferCalls (events : List ProcessEvent) : List (Call × Option Frame) :=
  events.filterMap ProcessEvent.bufferCall

/-- The frames that entered the ring. -/
def framesAccepted (events : List ProcessEvent) : List Frame :=
  events.filterMap ProcessEvent.acceptedFrame

end RtpStreamer
