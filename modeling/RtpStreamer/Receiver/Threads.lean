import RtpStreamer.Fifo.BoundedFifo
import RtpStreamer.Jitter.JitterBuffer

/-!
# The threads of the receiver

`receiver.cpp`: the receive thread fills the jitter buffer, the playout thread pulls the frames that
are due and pushes them into the ring, and the main thread drains the ring until the playout thread is
done. The ring is an atomic queue of bounded length, which is what the SPSC ring refines; the accesses
to `playout_done` and `underruns` are sequentially consistent steps of their own, and `jbuf_mutex`
keeps the receive thread out while the playout thread is in its inner loop.
-/

namespace RtpStreamer

/-- What the playout thread takes its frames from. -/
structure FrameSource where
  State : Type
  /-- What the receive thread hands over. -/
  Reception : Type
  init : State
  receive : State → Reception → State
  tryPullDueFrame : State → U32 → Option Frame × State
  finished : State → Bool

/-- What the receive thread does with the jitter buffer. -/
inductive Reception where
  | packet (packet : Packet) (arrivalSamples : U32)
  | idle

/-- The jitter buffer of the receiver. -/
def jitterSource (P : Platform) (options : Options)
    (junk : Vector (Vector U8 kSlotPayloadBytes) kCapacity) : FrameSource where
  State := JitterBuffer P
  Reception := Reception
  init := JitterBuffer.fresh P options junk
  receive
    | jb, .packet packet arrivalSamples => jb.push packet arrivalSamples
    | jb, .idle => jb.markStreamEnded
  tryPullDueFrame := JitterBuffer.tryPullDueFrame
  finished := JitterBuffer.finished

/-- A source that has the given frames due at once. -/
def listSource (frames : List Frame) : FrameSource where
  State := List Frame
  Reception := Empty
  init := frames
  receive frames _ := frames
  tryPullDueFrame frames _ := (frames.head?, frames.tail)
  finished frames := frames.isEmpty

/-- What the playout thread does next. From `pulling` to `leaving` it holds the mutex. -/
inductive PlayoutPc where
  | waiting
  | pulling (nowSamples : U32)
  | pushing (nowSamples : U32) (frame : Frame)
  | countingUnderrun (nowSamples : U32)
  | checking (nowSamples : U32)
  | leaving
  | storingDone
  | exited

/-- What the main thread does next. -/
inductive MainPc where
  | popping
  | loadingDone
  | lastPop
  | exited
  deriving DecidableEq

structure Receiver (source : FrameSource) (bound : Nat) where
  jbuf : source.State := source.init
  ring : BoundedFifo Frame bound := .empty Frame bound
  playoutDone : Bool := false
  underruns : Nat := 0
  playout : PlayoutPc := .waiting
  main : MainPc := .popping
  samples : List I16 := []

/-- The thread that moves. The playout thread reads the clock when it wakes up. -/
inductive Move (source : FrameSource) where
  | receive (reception : source.Reception)
  | playout (nowSamples : U32)
  | main

/-- A successful `try_pull_due_frame`, or a `push` with what it returned. -/
inductive Happening where
  | pulled (frame : Frame)
  | pushed (frame : Frame) (accepted : Bool)

def PlayoutPc.holdsMutex : PlayoutPc → Bool
  | .pulling _ | .pushing _ _ | .countingUnderrun _ | .checking _ | .leaving => true
  | .waiting | .storingDone | .exited => false

namespace Receiver

variable {source : FrameSource} {bound : Nat}

/-- The receive thread waits while the playout thread holds the mutex. -/
def receiveStep (receiver : Receiver source bound) (reception : source.Reception) :
    Receiver source bound :=
  if receiver.playout.holdsMutex then receiver
  else { receiver with jbuf := source.receive receiver.jbuf reception }

def playoutStep (receiver : Receiver source bound) (nowSamples : U32) :
    Receiver source bound × Option Happening :=
  match receiver.playout with
  | .waiting => ({ receiver with playout := .pulling nowSamples }, none)
  | .pulling nowSamples =>
    match source.tryPullDueFrame receiver.jbuf nowSamples with
    | (some frame, jbuf) =>
      ({ receiver with jbuf := jbuf, playout := .pushing nowSamples frame }, some (.pulled frame))
    | (none, jbuf) => ({ receiver with jbuf := jbuf, playout := .leaving }, none)
  | .pushing nowSamples frame =>
    let (accepted, ring) := receiver.ring.push frame
    ({ receiver with
        ring := ring
        playout := if accepted then .checking nowSamples else .countingUnderrun nowSamples },
      some (.pushed frame accepted))
  | .countingUnderrun nowSamples =>
    ({ receiver with underruns := receiver.underruns + 1, playout := .checking nowSamples }, none)
  | .checking nowSamples =>
    ({ receiver with
        playout := if source.finished receiver.jbuf then .leaving else .pulling nowSamples }, none)
  | .leaving =>
    ({ receiver with
        playout := if source.finished receiver.jbuf then .storingDone else .waiting }, none)
  | .storingDone => ({ receiver with playoutDone := true, playout := .exited }, none)
  | .exited => (receiver, none)

def mainStep (receiver : Receiver source bound) : Receiver source bound :=
  match receiver.main with
  | .popping =>
    match receiver.ring.pop with
    | (some frame, ring) =>
      { receiver with ring := ring, samples := receiver.samples ++ frame.toList }
    | (none, ring) => { receiver with ring := ring, main := .loadingDone }
  | .loadingDone =>
    { receiver with main := if receiver.playoutDone then .lastPop else .popping }
  | .lastPop =>
    match receiver.ring.pop with
    | (some frame, ring) =>
      { receiver with ring := ring, samples := receiver.samples ++ frame.toList, main := .popping }
    | (none, ring) => { receiver with ring := ring, main := .exited }
  | .exited => receiver

def step (receiver : Receiver source bound) :
    Move source → Receiver source bound × Option Happening
  | .receive reception => (receiver.receiveStep reception, none)
  | .playout nowSamples => receiver.playoutStep nowSamples
  | .main => (receiver.mainStep, none)

end Receiver

/-- The receiver with its three threads. -/
def receiverSystem (source : FrameSource) (bound : Nat) :
    DetSystem (Move source) (Option Happening) where
  State := Receiver source bound
  init := {}
  next := fun receiver move => (receiver.step move).1
  obs := fun receiver move => (receiver.step move).2

/-- The frames that `try_pull_due_frame` returned. -/
def pulledFrames (happenings : List (Option Happening)) : List Frame :=
  happenings.filterMap fun
    | some (.pulled frame) => some frame
    | _ => none

/-- The frames whose `push` returned true. -/
def acceptedFrames (happenings : List (Option Happening)) : List Frame :=
  happenings.filterMap fun
    | some (.pushed frame true) => some frame
    | _ => none

end RtpStreamer
