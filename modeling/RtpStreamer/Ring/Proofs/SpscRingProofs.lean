import Mathlib.Data.Nat.ModEq
import RtpStreamer.Ring.SpscRing

/-!
# The ring is a bounded FIFO queue

A push takes effect when it stores `head_`, or when it loads `tail_` and finds the ring full; a pop takes
effect when it stores `tail_`, or when it loads `head_` and finds the ring empty. Ordered by these
accesses, the calls of every interleaving are a history of an atomic queue that holds one item less
than the ring has slots.
-/

universe u

namespace RtpStreamer

open BoundedFifo (Op Answer)

/-! ## Masked indices -/

namespace Capacity

variable (capacity : Capacity)

/-- The mask of a power of two is a modulo. -/
theorem masked_val (i : Nat) : (capacity.masked i).val = i % capacity.size := by
  have hsize := capacity.two_le
  obtain ⟨k, hk⟩ := (Nat.and_sub_one_eq_zero_iff_isPowerOfTwo (by omega)).mp capacity.pow2
  show i &&& (capacity.size - 1) = _
  rw [hk, Nat.and_two_pow_sub_one_eq_mod]

theorem masked_self (i : Fin capacity.size) : capacity.masked i = i := by
  ext
  rw [masked_val, Nat.mod_eq_of_lt i.isLt]

theorem masked_add (i j : Nat) : capacity.masked (capacity.masked i + j) = capacity.masked (i + j) := by
  ext
  rw [masked_val, masked_val, masked_val, Nat.mod_add_mod]

/-- Fewer than `Capacity` consecutive indices have different slots. -/
theorem masked_inj {start i j : Nat} (hi : i < capacity.size) (hj : j < capacity.size)
    (h : capacity.masked (start + i) = capacity.masked (start + j)) : i = j := by
  have hval := congrArg Fin.val h
  rw [masked_val, masked_val] at hval
  have hmod : i ≡ j [MOD capacity.size] := Nat.ModEq.add_left_cancel' start hval
  exact hmod.eq_of_lt_of_lt hi hj

/-- The index `count + 1` slots after the tail is the tail again when `count` is `Capacity - 1`. -/
theorem masked_eq_tail_iff (tail : Fin capacity.size) {count : Nat} (h : count ≤ capacity.size - 1) :
    capacity.masked (tail + (count + 1)) = tail ↔ count = capacity.size - 1 := by
  have hsize := capacity.two_le
  constructor
  · intro heq
    by_contra hne
    rw [← capacity.masked_self tail, masked_add] at heq
    exact absurd (capacity.masked_inj (j := 0) (by omega) (by omega) heq) (by omega)
  · intro heq
    ext
    rw [masked_val, show tail.val + (count + 1) = tail.val + capacity.size by omega,
      Nat.add_mod_right, Nat.mod_eq_of_lt tail.isLt]

end Capacity

namespace SpscRing

variable {T : Type u} {capacity : Capacity}

/-! ## The invariant -/

/-- What the producer knows between two accesses, when `count` items are queued. -/
def ProducerKnows (ring : SpscRing T capacity) (count : Nat) : Prop :=
  match ring.producer with
  | .idle => True
  | .loadTail _ head => head = ring.head
  | .writeSlot _ head next =>
    head = ring.head ∧ next = capacity.masked (ring.head + 1) ∧ count < capacity.size - 1
  | .storeHead item next =>
    next = capacity.masked (ring.head + 1) ∧ count < capacity.size - 1 ∧
      ring.buffer.get ring.head = item

/-- What the consumer knows between two accesses, when `items` are queued. -/
def ConsumerKnows (ring : SpscRing T capacity) (items : List T) : Prop :=
  match ring.consumer with
  | .idle => True
  | .loadHead tail => tail = ring.tail
  | .readSlot tail => tail = ring.tail ∧ items ≠ []
  | .storeTail tail out => tail = ring.tail ∧ items.head? = some out

/-- The ring holds these items, in the slots from the tail to the head. -/
structure Linked (ring : SpscRing T capacity) (items : List T) : Prop where
  length_le : items.length ≤ capacity.size - 1
  head : ring.head = capacity.masked (ring.tail + items.length)
  contents : ∀ i item, items[i]? = some item →
    ring.buffer.get (capacity.masked (ring.tail + i)) = item
  producer : ring.ProducerKnows items.length
  consumer : ring.ConsumerKnows items

theorem linked_initial (initial : Vector T capacity.size) :
    Linked { buffer := initial } ([] : List T) where
  length_le := Nat.zero_le _
  head := (capacity.masked_self capacity.zero).symm
  contents := fun _ _ h => absurd h (by simp)
  producer := trivial
  consumer := trivial

theorem Linked.next_eq {ring : SpscRing T capacity} {items : List T} (h : Linked ring items) :
    capacity.masked (ring.head + 1) = capacity.masked (ring.tail + (items.length + 1)) := by
  rw [h.head, capacity.masked_add, Nat.add_assoc]

/-- The test of `push`: the next head is the tail exactly when the ring is full. -/
theorem Linked.full_iff {ring : SpscRing T capacity} {items : List T} (h : Linked ring items) :
    capacity.masked (ring.head + 1) = ring.tail ↔ items.length = capacity.size - 1 := by
  rw [h.next_eq]
  exact capacity.masked_eq_tail_iff ring.tail h.length_le

/-- The test of `pop`: the tail is the head exactly when the ring is empty. -/
theorem Linked.empty_iff {ring : SpscRing T capacity} {items : List T} (h : Linked ring items) :
    ring.tail = ring.head ↔ items = [] := by
  have hsize := capacity.two_le
  have hlen := h.length_le
  rw [h.head, ← List.length_eq_zero_iff]
  constructor
  · intro heq
    have h0 : capacity.masked (ring.tail + 0) = capacity.masked (ring.tail + items.length) := by
      rw [Nat.add_zero, capacity.masked_self]
      exact heq
    exact (capacity.masked_inj (by omega) (by omega) h0).symm
  · intro heq
    rw [heq, Nat.add_zero, capacity.masked_self]

/-- The slot at the head is not one of the slots that hold items. -/
theorem Linked.head_ne {ring : SpscRing T capacity} {items : List T} (h : Linked ring items) {i : Nat}
    (hi : i < items.length) : ring.head ≠ capacity.masked (ring.tail + i) := by
  have hsize := capacity.two_le
  have hlen := h.length_le
  intro heq
  rw [h.head] at heq
  exact absurd (capacity.masked_inj (by omega) (by omega) heq) (by omega)

/-- The slot at the tail holds the oldest item. -/
theorem Linked.get_tail {ring : SpscRing T capacity} {items : List T} (h : Linked ring items)
    (hne : items ≠ []) : items.head? = some (ring.buffer.get ring.tail) := by
  obtain ⟨item, rest, rfl⟩ := List.exists_cons_of_ne_nil hne
  have hget := h.contents 0 item rfl
  rw [Nat.add_zero, capacity.masked_self] at hget
  rw [hget]
  rfl

/-! ## One access -/

/-- An access that completes no call leaves the items as they are; one that completes a call answers
as a bounded queue does, and leaves the items of that queue. -/
def Simulates (result : SpscRing T capacity × Option (Op T × Answer T))
    (queue : BoundedFifo T (capacity.size - 1)) : Prop :=
  match result.2 with
  | none => Linked result.1 queue.items
  | some (op, answer) =>
    (BoundedFifo.system T (capacity.size - 1)).obs queue op = answer ∧
      Linked result.1
        (BoundedFifo.items ((BoundedFifo.system T (capacity.size - 1)).next queue op))

/-- Writing the slot at the head. -/
theorem Linked.write {ring : SpscRing T capacity} {items : List T} (h : Linked ring items) (item : T)
    {pc : PushPc T capacity}
    (hpc : ProducerKnows
      { ring with buffer := ring.buffer.set ring.head item, producer := pc } items.length) :
    Linked { ring with buffer := ring.buffer.set ring.head item, producer := pc } items where
  length_le := h.length_le
  head := h.head
  contents := by
    intro i queued hget
    have hi := (List.getElem?_eq_some_iff.mp hget).1
    have hne : ring.head.val ≠ (capacity.masked (ring.tail + i)).val :=
      fun heq => h.head_ne hi (Fin.ext heq)
    show (ring.buffer.set ring.head item)[(capacity.masked (ring.tail + i)).val] = queued
    rw [Vector.getElem_set_ne _ _ hne]
    exact h.contents i queued hget
  producer := hpc
  consumer := h.consumer

/-- Storing the head makes the item of the slot at the head the last one queued. -/
theorem Linked.publish {ring : SpscRing T capacity} {items : List T} (h : Linked ring items)
    (hlt : items.length < capacity.size - 1) {item : T} (hget : ring.buffer.get ring.head = item) :
    Linked { ring with head := capacity.masked (ring.head + 1), producer := .idle }
      (items ++ [item]) where
  length_le := by
    rw [List.length_append]
    exact hlt
  head := by
    rw [List.length_append]
    exact h.next_eq
  contents := by
    intro i queued hqueued
    by_cases hi : i < items.length
    · rw [List.getElem?_append_left hi] at hqueued
      exact h.contents i queued hqueued
    · have hi' := (List.getElem?_eq_some_iff.mp hqueued).1
      rw [List.length_append, List.length_singleton] at hi'
      obtain rfl : i = items.length := by omega
      rw [List.getElem?_concat_length] at hqueued
      show ring.buffer.get (capacity.masked (ring.tail + items.length)) = queued
      rw [← h.head, hget]
      exact Option.some.inj hqueued
  producer := trivial
  consumer := by
    have hconsumer := h.consumer
    unfold ConsumerKnows at hconsumer ⊢
    cases hpc : ring.consumer with
    | idle => trivial
    | loadHead tail =>
      rw [hpc] at hconsumer
      exact hconsumer
    | readSlot tail =>
      rw [hpc] at hconsumer
      exact ⟨hconsumer.1, by simp⟩
    | storeTail tail out =>
      rw [hpc] at hconsumer
      exact ⟨hconsumer.1, by rw [List.head?_append, hconsumer.2]; rfl⟩

/-- Storing the tail releases the slot of the oldest item. -/
theorem Linked.release {ring : SpscRing T capacity} {items : List T} (h : Linked ring items)
    (hne : items ≠ []) :
    Linked { ring with tail := capacity.masked (ring.tail + 1), consumer := .idle }
      items.tail := by
  obtain ⟨item, rest, rfl⟩ := List.exists_cons_of_ne_nil hne
  refine ⟨?_, ?_, ?_, ?_, trivial⟩
  · exact Nat.le_of_succ_le h.length_le
  · show ring.head = capacity.masked (capacity.masked (ring.tail + 1) + rest.length)
    rw [capacity.masked_add, Nat.add_assoc, Nat.add_comm 1]
    exact h.head
  · intro i queued hget
    show ring.buffer.get (capacity.masked (capacity.masked (ring.tail + 1) + i)) = queued
    rw [capacity.masked_add, Nat.add_assoc, Nat.add_comm 1]
    exact h.contents (i + 1) queued hget
  · have hproducer := h.producer
    have hlen : (item :: rest).length = rest.length + 1 := rfl
    unfold ProducerKnows at hproducer ⊢
    cases hpc : ring.producer with
    | idle => trivial
    | loadTail offered head =>
      rw [hpc] at hproducer
      exact hproducer
    | writeSlot offered head next =>
      rw [hpc] at hproducer
      exact ⟨hproducer.1, hproducer.2.1, lt_trans (Nat.lt_succ_self _) hproducer.2.2⟩
    | storeHead offered next =>
      rw [hpc] at hproducer
      exact ⟨hproducer.1, lt_trans (Nat.lt_succ_self _) hproducer.2.1, hproducer.2.2⟩

theorem Linked.producerStep {ring : SpscRing T capacity} {queue : BoundedFifo T (capacity.size - 1)}
    (h : Linked ring queue.items) (offered : T) : Simulates (ring.producerStep offered) queue := by
  have hproducer := h.producer
  unfold ProducerKnows at hproducer
  unfold SpscRing.producerStep
  cases hpc : ring.producer with
  | idle => exact ⟨h.length_le, h.head, h.contents, rfl, h.consumer⟩
  | loadTail item head =>
    rw [hpc] at hproducer
    subst hproducer
    by_cases hfull : capacity.masked (ring.head + 1) = ring.tail
    · -- a push that finds the ring full takes effect here
      have hpush := BoundedFifo.push_of_full (h.full_iff.mp hfull) item
      simp only [if_pos hfull]
      refine ⟨congrArg Answer.pushed (congrArg Prod.fst hpush), ?_⟩
      show Linked _ (queue.push item).2.items
      rw [hpush]
      exact ⟨h.length_le, h.head, h.contents, trivial, h.consumer⟩
    · have hlt : queue.items.length < capacity.size - 1 :=
        lt_of_le_of_ne h.length_le fun heq => hfull (h.full_iff.mpr heq)
      simp only [if_neg hfull]
      exact ⟨h.length_le, h.head, h.contents, ⟨rfl, rfl, hlt⟩, h.consumer⟩
  | writeSlot item head next =>
    rw [hpc] at hproducer
    obtain ⟨rfl, hnext, hlt⟩ := hproducer
    refine h.write item ⟨hnext, hlt, ?_⟩
    show (ring.buffer.set ring.head item)[ring.head.val] = item
    rw [Vector.getElem_set_self]
  | storeHead item next =>
    rw [hpc] at hproducer
    obtain ⟨rfl, hlt, hget⟩ := hproducer
    obtain ⟨htrue, hitems⟩ := BoundedFifo.push_of_lt hlt item
    refine ⟨congrArg Answer.pushed htrue, ?_⟩
    show Linked _ (queue.push item).2.items
    rw [hitems]
    exact h.publish hlt hget

theorem Linked.consumerStep {ring : SpscRing T capacity} {queue : BoundedFifo T (capacity.size - 1)}
    (h : Linked ring queue.items) : Simulates ring.consumerStep queue := by
  have hconsumer := h.consumer
  unfold ConsumerKnows at hconsumer
  unfold SpscRing.consumerStep
  cases hpc : ring.consumer with
  | idle => exact ⟨h.length_le, h.head, h.contents, h.producer, rfl⟩
  | loadHead tail =>
    rw [hpc] at hconsumer
    subst hconsumer
    by_cases hempty : ring.tail = ring.head
    · -- a pop that finds the ring empty takes effect here
      have hnil := h.empty_iff.mp hempty
      simp only [if_pos hempty]
      refine ⟨congrArg Answer.popped (queue.pop_eq_none_iff.mpr hnil), ?_⟩
      show Linked _ queue.items.tail
      rw [hnil] at h ⊢
      exact ⟨h.length_le, h.head, h.contents, h.producer, trivial⟩
    · simp only [if_neg hempty]
      exact ⟨h.length_le, h.head, h.contents, h.producer,
        ⟨rfl, fun hnil => hempty (h.empty_iff.mpr hnil)⟩⟩
  | readSlot tail =>
    rw [hpc] at hconsumer
    obtain ⟨rfl, hne⟩ := hconsumer
    exact ⟨h.length_le, h.head, h.contents, h.producer, ⟨rfl, h.get_tail hne⟩⟩
  | storeTail tail out =>
    rw [hpc] at hconsumer
    obtain ⟨rfl, hout⟩ := hconsumer
    refine ⟨congrArg Answer.popped hout, ?_⟩
    show Linked _ queue.items.tail
    exact h.release (by rintro hnil; rw [hnil] at hout; exact absurd hout (by simp))

theorem Linked.step {ring : SpscRing T capacity} {queue : BoundedFifo T (capacity.size - 1)}
    (h : Linked ring queue.items) (access : Access T) : Simulates (ring.step access) queue := by
  cases access with
  | producer item => exact h.producerStep item
  | consumer => exact h.consumerStep

/-! ## Runs -/

/-- **Linearizability.** In every interleaving the calls, in the order in which they take effect, are a
legal history of a queue of `Capacity - 1` items, and the ring holds what that queue holds. -/
theorem ring_linearizable (capacity : Capacity) (initial : Vector T capacity.size)
    (accesses : List (Access T)) :
    (BoundedFifo.system T (capacity.size - 1)).Legal
        ((ringSystem capacity initial).history accesses) ∧
      Linked ((ringSystem capacity initial).run accesses)
        (BoundedFifo.after (capacity.size - 1)
          ((ringSystem capacity initial).history accesses)).items := by
  refine DetSystem.linearization (M := ringSystem capacity initial)
    (N := BoundedFifo.system T (capacity.size - 1))
    (R := fun ring queue => Linked ring (BoundedFifo.items queue)) (linked_initial initial)
    ?_ ?_ accesses
  · intro ring queue access h hobs
    have hstep := Linked.step h access
    unfold Simulates at hstep
    rw [show (SpscRing.step ring access).2 = none from hobs] at hstep
    exact hstep
  · intro ring queue access event h hobs
    have hstep := Linked.step h access
    unfold Simulates at hstep
    rw [show (SpscRing.step ring access).2 = some event from hobs] at hstep
    exact hstep

/-- The slot that is written is not one that the consumer has claimed. -/
theorem Linked.writeTarget_ne_claimed {ring : SpscRing T capacity} {items : List T}
    (h : Linked ring items) {slot : Fin capacity.size} (hclaimed : ring.claimed = some slot) :
    ring.writeTarget ≠ some slot := by
  -- the consumer has claimed the slot at the tail, of a ring that is not empty
  have htail : slot = ring.tail ∧ items ≠ [] := by
    have hconsumer := h.consumer
    unfold ConsumerKnows at hconsumer
    unfold claimed at hclaimed
    cases hpc : ring.consumer with
    | idle => simp [hpc] at hclaimed
    | loadHead tail => simp [hpc] at hclaimed
    | readSlot tail =>
      rw [hpc] at hconsumer hclaimed
      exact ⟨(Option.some.inj hclaimed).symm.trans hconsumer.1, hconsumer.2⟩
    | storeTail tail out =>
      rw [hpc] at hconsumer hclaimed
      refine ⟨(Option.some.inj hclaimed).symm.trans hconsumer.1, ?_⟩
      rintro rfl
      exact absurd hconsumer.2 (by simp)
  intro hwrite
  have hhead : slot = ring.head := by
    have hproducer := h.producer
    unfold ProducerKnows at hproducer
    unfold writeTarget at hwrite
    cases hpc : ring.producer with
    | idle => simp [hpc] at hwrite
    | loadTail item head => simp [hpc] at hwrite
    | writeSlot item head next =>
      rw [hpc] at hproducer hwrite
      exact (Option.some.inj hwrite).symm.trans hproducer.1
    | storeHead item next => simp [hpc] at hwrite
  exact htail.2 (h.empty_iff.mp (htail.1.symm.trans hhead))

/-- A push that returns false found the ring full, and a pop that returns false found it empty. -/
theorem Linked.refused {ring : SpscRing T capacity} {queue : BoundedFifo T (capacity.size - 1)}
    (h : Linked ring queue.items) (access : Access T) :
    (∀ item, (ring.step access).2 = some (.push item, .pushed false) →
      queue.items.length = capacity.size - 1) ∧
    ((ring.step access).2 = some (.pop, .popped none) → queue.items = []) := by
  have hstep := h.step access
  unfold Simulates at hstep
  constructor
  · intro item hobs
    rw [hobs] at hstep
    have hfalse : (queue.push item).1 = false := Answer.pushed.inj hstep.1
    by_contra hne
    have htrue := (BoundedFifo.push_of_lt (lt_of_le_of_ne h.length_le hne) item).1
    rw [hfalse] at htrue
    exact absurd htrue (by decide)
  · intro hobs
    rw [hobs] at hstep
    exact queue.pop_eq_none_iff.mp (Answer.popped.inj hstep.1)

/-- **The SPSC ring.** In every interleaving of the accesses, for every capacity and element type: what
was popped is a prefix of what was pushed; at most `Capacity - 1` items are not popped; the producer
never writes a slot that the consumer has claimed and not released; a push returns false only if
`Capacity - 1` items were unreleased when it loaded the tail, and a pop returns false only if no item
was published when it loaded the head. -/
theorem spsc_ring_correct (capacity : Capacity) (initial : Vector T capacity.size)
    (accesses : List (Access T)) :
    let ring : SpscRing T capacity := (ringSystem capacity initial).run accesses
    let events := (ringSystem capacity initial).history accesses
    let pushed := BoundedFifo.pushedItems events
    let popped := BoundedFifo.poppedItems events
    popped <+: pushed ∧
    pushed.length ≤ popped.length + (capacity.size - 1) ∧
    (∀ slot, ring.claimed = some slot → ring.writeTarget ≠ some slot) ∧
    (∀ access item, (ring.step access).2 = some (.push item, .pushed false) →
      pushed.length = popped.length + (capacity.size - 1)) ∧
    (∀ access, (ring.step access).2 = some (.pop, .popped none) →
      pushed.length = popped.length) := by
  intro ring events pushed popped
  obtain ⟨hlegal, hlinked⟩ := ring_linearizable capacity initial accesses
  have hfifo : pushed = popped ++ (BoundedFifo.after (capacity.size - 1) events).items :=
    BoundedFifo.pushedItems_eq hlegal
  have hlen := congrArg List.length hfifo
  rw [List.length_append] at hlen
  refine ⟨BoundedFifo.poppedItems_prefix hlegal, ?_, ?_, ?_, ?_⟩
  · have hbound := (BoundedFifo.after (capacity.size - 1) events).length_le
    omega
  · exact fun slot hclaimed => hlinked.writeTarget_ne_claimed hclaimed
  · intro access item hobs
    have hfull := (hlinked.refused access).1 item hobs
    rw [hlen, hfull]
  · intro access hobs
    have hempty := (hlinked.refused access).2 hobs
    rw [hlen, hempty]
    rfl

end SpscRing

end RtpStreamer
