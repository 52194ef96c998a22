import RtpStreamer.Fifo.BoundedFifo

/-!
# The single-producer/single-consumer ring

`ring_buffer.hpp`, one memory access at a time: `push` loads `head_`, loads `tail_`, writes a slot and
stores `head_`, and `pop` loads `tail_`, loads `head_`, reads a slot and stores `tail_`. The acquire
and release accesses are taken as sequentially consistent, so a run is any interleaving of the
accesses of the two threads.
-/

universe u

namespace RtpStreamer

open BoundedFifo (Op Answer)

/-- A `Capacity` that passes both `static_assert`s. -/
structure Capacity where
  size : Nat
  two_le : 2 ≤ size
  pow2 : size &&& (size - 1) = 0

namespace Capacity

def kMask (capacity : Capacity) : Nat := capacity.size - 1

/-- `i & kMask`. -/
def masked (capacity : Capacity) (i : Nat) : Fin capacity.size :=
  ⟨i &&& capacity.kMask, by
    have hle : i &&& capacity.kMask ≤ capacity.kMask := Nat.and_le_right
    have hsize := capacity.two_le
    unfold kMask at hle ⊢
    omega⟩

def zero (capacity : Capacity) : Fin capacity.size := ⟨0, by have := capacity.two_le; omega⟩

end Capacity

/-- The access of `push` that the producer makes next, with the variables it has. -/
inductive PushPc (T : Type u) (capacity : Capacity) where
  | idle
  | loadTail (item : T) (head : Fin capacity.size)
  | writeSlot (item : T) (head next : Fin capacity.size)
  | storeHead (item : T) (next : Fin capacity.size)

/-- The access of `pop` that the consumer makes next, with the variables it has. -/
inductive PopPc (T : Type u) (capacity : Capacity) where
  | idle
  | loadHead (tail : Fin capacity.size)
  | readSlot (tail : Fin capacity.size)
  | storeTail (tail : Fin capacity.size) (out : T)

structure SpscRing (T : Type u) (capacity : Capacity) where
  buffer : Vector T capacity.size
  head : Fin capacity.size := capacity.zero
  tail : Fin capacity.size := capacity.zero
  producer : PushPc T capacity := .idle
  consumer : PopPc T capacity := .idle

/-- Which thread makes its next access. The item is the one that the producer offers if it starts a
push. -/
inductive Access (T : Type u) where
  | producer (item : T)
  | consumer

namespace SpscRing

variable {T : Type u} {capacity : Capacity}

/-- One access of `push`, and the call it completes. -/
def producerStep (ring : SpscRing T capacity) (offered : T) :
    SpscRing T capacity × Option (Op T × Answer T) :=
  match ring.producer with
  | .idle => ({ ring with producer := .loadTail offered ring.head }, none)
  | .loadTail item head =>
    let next := capacity.masked (head + 1)
    if next = ring.tail then ({ ring with producer := .idle }, some (.push item, .pushed false))
    else ({ ring with producer := .writeSlot item head next }, none)
  | .writeSlot item head next =>
    ({ ring with buffer := ring.buffer.set head item, producer := .storeHead item next }, none)
  | .storeHead item next =>
    ({ ring with head := next, producer := .idle }, some (.push item, .pushed true))

/-- One access of `pop`, and the call it completes. -/
def consumerStep (ring : SpscRing T capacity) : SpscRing T capacity × Option (Op T × Answer T) :=
  match ring.consumer with
  | .idle => ({ ring with consumer := .loadHead ring.tail }, none)
  | .loadHead tail =>
    if tail = ring.head then ({ ring with consumer := .idle }, some (.pop, .popped none))
    else ({ ring with consumer := .readSlot tail }, none)
  | .readSlot tail => ({ ring with consumer := .storeTail tail (ring.buffer.get tail) }, none)
  | .storeTail tail out =>
    ({ ring with tail := capacity.masked (tail + 1), consumer := .idle },
      some (.pop, .popped (some out)))

def step (ring : SpscRing T capacity) : Access T → SpscRing T capacity × Option (Op T × Answer T)
  | .producer item => ring.producerStep item
  | .consumer => ring.consumerStep

/-- The slot that the producer is about to write. -/
def writeTarget (ring : SpscRing T capacity) : Option (Fin capacity.size) :=
  match ring.producer with
  | .writeSlot _ head _ => some head
  | _ => none

/-- The slot that the consumer has found full and not yet released. -/
def claimed (ring : SpscRing T capacity) : Option (Fin capacity.size) :=
  match ring.consumer with
  | .readSlot tail => some tail
  | .storeTail tail _ => some tail
  | _ => none

end SpscRing

/-- A ring and its two threads. `initial` is what `buffer_` holds at the start. -/
def ringSystem {T : Type u} (capacity : Capacity) (initial : Vector T capacity.size) :
    DetSystem (Access T) (Option (Op T × Answer T)) where
  State := SpscRing T capacity
  init := { buffer := initial }
  next := fun ring access => (ring.step access).1
  obs := fun ring access => (ring.step access).2

end RtpStreamer
