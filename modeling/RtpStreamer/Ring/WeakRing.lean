import RtpStreamer.Memory.ReleaseAcquire
import RtpStreamer.Ring.SpscRing

/-!
# The ring in release/acquire memory

`ring_buffer.hpp` with the memory orders that it names: `push` loads `head_` relaxed and `tail_` acquire,
writes the slot and stores `head_` release, and `pop` the other way round. A load may return an old index, and
an access to a slot may race, where `SpscRing.lean` takes every access to be sequentially consistent.

The ring lives in a memory with other atomic and ordinary variables.
-/

universe u

namespace RtpStreamer

open BoundedFifo (Op Answer)
open ReleaseAcquire

/-- `head_` and `tail_`, and the other atomic variables of the memory. -/
inductive RingAtomic (E : Type) where
  | head
  | tail
  | other (e : E)
  deriving DecidableEq

/-- The slots of `buffer_`, and the other variables of the memory. -/
inductive RingCell (capacity : Capacity) (X : Type) where
  | slot (i : Fin capacity.size)
  | other (x : X)
  deriving DecidableEq

/-- What an atomic variable holds. -/
abbrev RingAtomic.Value {E : Type} (capacity : Capacity) (value : E → Type) : RingAtomic E → Type
  | .head | .tail => Fin capacity.size
  | .other e => value e

/-- What an ordinary variable holds. -/
abbrev RingCell.Content {capacity : Capacity} {X : Type} (T : Type u) (content : X → Type u) :
    RingCell capacity X → Type u
  | .slot _ => T
  | .other x => content x

abbrev RingMemory (θ L : Type) (T : Type u) (capacity : Capacity) {E X : Type} (value : E → Type)
    (content : X → Type u) :=
  Memory θ (RingAtomic E) (RingCell capacity X) L (RingAtomic.Value capacity value)
    (RingCell.Content T content)

section Steps

variable {θ L E X : Type} [DecidableEq θ] [Fintype θ] [DecidableEq E] [DecidableEq X] {T : Type u}
  {capacity : Capacity} {value : E → Type} {content : X → Type u}

/-- One access of `push` by a thread, and the call it completes. -/
def pushStep (t : θ) (m : RingMemory θ L T capacity value content) (pc : PushPc T capacity) (offered : T)
    (pick : ℕ) :
    RingMemory θ L T capacity value content × PushPc T capacity × Option (Op T × Answer T) :=
  match pc with
  | .idle =>
    let (m, head) := m.loadRelaxed t .head pick
    (m, .loadTail offered head, none)
  | .loadTail item head =>
    let next := capacity.masked (Fin.val head + 1)
    let (m, tail) := m.loadAcquire t .tail pick
    if next = (tail : Fin capacity.size) then (m, .idle, some (.push item, .pushed false))
    else (m, .writeSlot item head next, none)
  | .writeSlot item head next => (m.writeCell t (.slot head) item, .storeHead item next, none)
  | .storeHead item next => (m.storeRelease t .head next, .idle, some (.push item, .pushed true))

/-- One access of `pop` by a thread, and the call it completes. -/
def popStep (t : θ) (m : RingMemory θ L T capacity value content) (pc : PopPc T capacity) (pick : ℕ) :
    RingMemory θ L T capacity value content × PopPc T capacity × Option (Op T × Answer T) :=
  match pc with
  | .idle =>
    let (m, tail) := m.loadRelaxed t .tail pick
    (m, .loadHead tail, none)
  | .loadHead tail =>
    let (m, head) := m.loadAcquire t .head pick
    if tail = (head : Fin capacity.size) then (m, .idle, some (.pop, .popped none))
    else (m, .readSlot tail, none)
  | .readSlot tail =>
    let (m, out) := m.readCell t (.slot tail)
    (m, .storeTail tail out, none)
  | .storeTail tail out =>
    (m.storeRelease t .tail (capacity.masked (tail + 1)), .idle, some (.pop, .popped (some out)))

end Steps

/-- The two threads of a ring. -/
inductive RingThread where
  | producer
  | consumer
  deriving DecidableEq

instance : Fintype RingThread where
  elems := {.producer, .consumer}
  complete := fun t => by cases t <;> decide

/-- A ring, with nothing else in its memory. -/
structure WeakRing (T : Type u) (capacity : Capacity) where
  memory : RingMemory RingThread Empty T capacity (Empty.elim : Empty → Type) (Empty.elim : Empty → Type u)
  producer : PushPc T capacity := .idle
  consumer : PopPc T capacity := .idle

namespace WeakRing

variable {T : Type u} {capacity : Capacity}

/-- One access of a thread. A load returns the store that is picked, or the next newer one that it may. -/
def step (ring : WeakRing T capacity) :
    Access T × ℕ → WeakRing T capacity × Option (Op T × Answer T)
  | (.producer item, pick) =>
    let (memory, producer, answer) := pushStep .producer ring.memory ring.producer item pick
    ({ ring with memory := memory, producer := producer }, answer)
  | (.consumer, pick) =>
    let (memory, consumer, answer) := popStep .consumer ring.memory ring.consumer pick
    ({ ring with memory := memory, consumer := consumer }, answer)

end WeakRing

/-- What the variables of a ring hold at the start. -/
def ringValues {E : Type} {value : E → Type} (capacity : Capacity) (others : (e : E) → value e) :
    (a : RingAtomic E) → RingAtomic.Value capacity value a
  | .head | .tail => capacity.zero
  | .other e => others e

def ringCells {X : Type} {T : Type u} {content : X → Type u} {capacity : Capacity}
    (initial : Vector T capacity.size) (others : (x : X) → content x) :
    (n : RingCell capacity X) → RingCell.Content T content n
  | .slot i => initial.get i
  | .other x => others x

/-- A ring and its two threads. -/
def weakRingSystem {T : Type u} (capacity : Capacity) (initial : Vector T capacity.size) :
    DetSystem (Access T × ℕ) (Option (Op T × Answer T)) where
  State := WeakRing T capacity
  init := { memory := .initial (ringValues capacity fun e => e.elim) (ringCells initial fun x => x.elim) }
  next := fun ring access => (ring.step access).1
  obs := fun ring access => (ring.step access).2

end RtpStreamer
