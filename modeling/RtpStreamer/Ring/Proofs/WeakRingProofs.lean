import RtpStreamer.Ring.Proofs.SpscRingProofs
import RtpStreamer.Ring.WeakRing

/-!
# The ring without sequential consistency

What `ring_buffer.hpp` needs of its acquire and release orders: a view that knows of a store of `head_` knows
of the writes of the slots that this store publishes, and a view that knows of a store of `tail_` knows of the
reads of the slots that this store frees. So no access to a slot races, and the items are popped in the order
in which they were pushed, whatever old indices the loads return.
-/

universe u

set_option linter.unusedSectionVars false

namespace RtpStreamer

open BoundedFifo (Op Answer pushedItems poppedItems)
open ReleaseAcquire ReleaseAcquire.Memory

/-- Two indices less than `Capacity` apart have different slots. -/
theorem Capacity.masked_ne (capacity : Capacity) {i j : ℕ} (hlt : i < j) (hj : j < i + capacity.size) :
    capacity.masked j ≠ capacity.masked i := by
  intro heq
  have hsize := capacity.two_le
  have hmasked : capacity.masked (i + (j - i)) = capacity.masked (i + 0) := by
    rwa [Nat.add_zero, Nat.add_sub_cancel' (by omega)]
  have hzero : j - i = 0 := capacity.masked_inj (by omega) (by omega) hmasked
  omega

variable {θ L E X : Type} {T : Type u} {capacity : Capacity} {value : E → Type} {content : X → Type u}

/-! ## What a view knows of the ring -/

/-- The accesses to the ring. -/
def OfRing : Place θ (RingAtomic E) (RingCell capacity X) → Prop
  | .stored .head | .stored .tail | .written (.slot _) | .read (.slot _) _ => True
  | .stored (.other _) | .written (.other _) | .read (.other _) _ => False

theorem ofRing_of_eq {place other : Place θ (RingAtomic E) (RingCell capacity X)} (hother : OfRing other)
    (heq : place = other) : OfRing place :=
  heq ▸ hother

/-- Who knows of a store of `head_` knows of the writes of the items up to it that have not been popped, and
who knows of a store of `tail_` knows of the reads of the slots up to it that have not been written again. -/
structure RingView (consumer : θ) (latest view : View θ (RingAtomic E) (RingCell capacity X)) : Prop where
  le : view ≤ latest
  filled : ∀ j, latest (.stored .tail) ≤ j → j < view (.stored .head) →
    view (.written (.slot (capacity.masked j))) = latest (.written (.slot (capacity.masked j)))
  freed : ∀ j, latest (.stored .head) ≤ j → j < view (.stored .tail) + capacity.size →
    view (.read (.slot (capacity.masked j)) consumer) = latest (.read (.slot (capacity.masked j)) consumer)

section Views

variable {consumer : θ} {latest latest' view view' : View θ (RingAtomic E) (RingCell capacity X)}

theorem RingView.frame (h : RingView consumer latest view)
    (hlatest : ∀ place, OfRing place → latest' place = latest place)
    (hview : ∀ place, OfRing place → view' place = view place) (hle : view' ≤ latest') :
    RingView consumer latest' view' where
  le := hle
  filled := by
    intro j htail hhead
    rw [hlatest (.stored .tail) trivial] at htail
    rw [hview (.stored .head) trivial] at hhead
    rw [hview (.written (.slot _)) trivial, hlatest (.written (.slot _)) trivial, h.filled j htail hhead]
  freed := by
    intro j hhead htail
    rw [hlatest (.stored .head) trivial] at hhead
    rw [hview (.stored .tail) trivial] at htail
    rw [hview (.read (.slot _) _) trivial, hlatest (.read (.slot _) _) trivial, h.freed j hhead htail]

theorem joins_ringView (consumer : θ) :
    Joins (RingView consumer : View θ (RingAtomic E) (RingCell capacity X) → _ → Prop) := by
  intro latest view view' h h'
  have hle : view ⊔ view' ≤ latest := sup_le h.le h'.le
  refine ⟨hle, fun j htail hhead => le_antisymm (hle _) ?_, fun j hhead htail => le_antisymm (hle _) ?_⟩
  · rcases le_total (view (.stored .head)) (view' (.stored .head)) with hmax | hmax
    · rw [← h'.filled j htail (by rwa [Pi.sup_apply, sup_eq_right.mpr hmax] at hhead)]
      exact le_sup_right
    · rw [← h.filled j htail (by rwa [Pi.sup_apply, sup_eq_left.mpr hmax] at hhead)]
      exact le_sup_left
  · rcases le_total (view (.stored .tail)) (view' (.stored .tail)) with hmax | hmax
    · rw [← h'.freed j hhead (by rwa [Pi.sup_apply, sup_eq_right.mpr hmax] at htail)]
      exact le_sup_right
    · rw [← h.freed j hhead (by rwa [Pi.sup_apply, sup_eq_left.mpr hmax] at htail)]
      exact le_sup_left

end Views

section Bumps

variable [DecidableEq θ] [DecidableEq E] [DecidableEq X] {consumer : θ}
  {latest view view' : View θ (RingAtomic E) (RingCell capacity X)}

/-- The write of a slot that holds no item. -/
theorem RingView.written (h : RingView consumer latest view)
    (hroom : latest (.stored .head) < latest (.stored .tail) + capacity.size)
    (hview : Bumped latest (.written (.slot (capacity.masked (latest (.stored .head))))) view view') :
    RingView consumer (bump latest (.written (.slot (capacity.masked (latest (.stored .head))))) latest)
      view' := by
  refine ⟨hview.le h.le, fun j htail hhead => ?_, fun j hhead htail => ?_⟩
  · rw [bump_of_ne (by simp)] at htail
    rw [hview.of_ne (by simp)] at hhead
    have hle : view (.stored .head) ≤ latest (.stored .head) := h.le _
    have hne := (capacity.masked_ne (i := j) (j := latest (.stored .head)) (by omega) (by omega)).symm
    rw [hview.of_ne (by simpa using hne), bump_of_ne (by simpa using hne), h.filled j htail hhead]
  · rw [bump_of_ne (by simp)] at hhead
    rw [hview.of_ne (by simp)] at htail
    rw [hview.of_ne (by simp), bump_of_ne (by simp), h.freed j hhead htail]

/-- The read of the slot that holds the oldest item. -/
theorem RingView.read (h : RingView consumer latest view)
    (htaken : latest (.stored .tail) < latest (.stored .head))
    (hview : Bumped latest (.read (.slot (capacity.masked (latest (.stored .tail)))) consumer) view view') :
    RingView consumer
      (bump latest (.read (.slot (capacity.masked (latest (.stored .tail)))) consumer) latest) view' := by
  refine ⟨hview.le h.le, fun j htail hhead => ?_, fun j hhead htail => ?_⟩
  · rw [bump_of_ne (by simp)] at htail
    rw [hview.of_ne (by simp)] at hhead
    rw [hview.of_ne (by simp), bump_of_ne (by simp), h.filled j htail hhead]
  · rw [bump_of_ne (by simp)] at hhead
    rw [hview.of_ne (by simp)] at htail
    have hle : view (.stored .tail) ≤ latest (.stored .tail) := h.le _
    have hne := capacity.masked_ne (i := latest (.stored .tail)) (j := j) (by omega) (by omega)
    rw [hview.of_ne (by simpa using hne), bump_of_ne (by simpa using hne), h.freed j hhead htail]

/-- A store of `head_`, made by a thread that knows of every write of a slot. -/
theorem RingView.storedHead (h : RingView consumer latest view)
    (hview : Bumped latest (.stored .head) view view')
    (hown : view' = view ∨ ∀ i, view (.written (.slot i)) = latest (.written (.slot i))) :
    RingView consumer (bump latest (.stored .head) latest) view' := by
  refine ⟨hview.le h.le, fun j htail hhead => ?_, fun j hhead htail => ?_⟩
  · rw [bump_of_ne (by simp)] at htail
    rw [hview.of_ne (by simp), bump_of_ne (by simp)]
    rcases hown with rfl | hown
    · exact h.filled j htail hhead
    · exact hown _
  · rw [bump_self] at hhead
    rw [hview.of_ne (by simp)] at htail
    rw [hview.of_ne (by simp), bump_of_ne (by simp), h.freed j (by omega) htail]

/-- A store of `tail_`, made by a thread that knows of every read of a slot. -/
theorem RingView.storedTail (h : RingView consumer latest view)
    (hview : Bumped latest (.stored .tail) view view')
    (hown : view' = view ∨ ∀ i, view (.read (.slot i) consumer) = latest (.read (.slot i) consumer)) :
    RingView consumer (bump latest (.stored .tail) latest) view' := by
  refine ⟨hview.le h.le, fun j htail hhead => ?_, fun j hhead htail => ?_⟩
  · rw [bump_self] at htail
    rw [hview.of_ne (by simp)] at hhead
    rw [hview.of_ne (by simp), bump_of_ne (by simp), h.filled j (by omega) hhead]
  · rw [bump_of_ne (by simp)] at hhead
    rw [hview.of_ne (by simp), bump_of_ne (by simp)]
    rcases hown with rfl | hown
    · exact h.freed j hhead htail
    · exact hown _

/-- An access to another variable. -/
theorem RingView.bumpedOff (h : RingView consumer latest view) {place : Place θ (RingAtomic E) (RingCell capacity X)}
    (hoff : ¬ OfRing place) (hview : Bumped latest place view view') :
    RingView consumer (bump latest place latest) view' := by
  have hne {other : Place θ (RingAtomic E) (RingCell capacity X)} (hother : OfRing other) : other ≠ place := by
    rintro rfl
    exact hoff hother
  exact h.frame (fun _ hother => bump_of_ne (hne hother)) (fun _ hother => hview.of_ne (hne hother))
    (hview.le h.le)

end Bumps

/-! ## The invariant -/

section Invariant

variable (producer consumer : θ) (m : RingMemory θ L T capacity value content)

/-- What the producer knows between two accesses. -/
def PushKnows : PushPc T capacity → Prop
  | .idle => True
  | .loadTail _ head => head = capacity.masked (m.latest (.stored .head))
  | .writeSlot _ head next =>
    head = capacity.masked (m.latest (.stored .head)) ∧
      next = capacity.masked (m.latest (.stored .head) + 1) ∧
      m.latest (.stored .head) < m.views producer (.stored .tail) + (capacity.size - 1)
  | .storeHead item next =>
    next = capacity.masked (m.latest (.stored .head) + 1) ∧
      m.latest (.stored .head) < m.views producer (.stored .tail) + (capacity.size - 1) ∧
      m.cells (.slot (capacity.masked (m.latest (.stored .head)))) = item

/-- What the consumer knows between two accesses, when these items have been pushed. -/
def PopKnows (pushed : List T) : PopPc T capacity → Prop
  | .idle => True
  | .loadHead tail => tail = capacity.masked (m.latest (.stored .tail))
  | .readSlot tail =>
    tail = capacity.masked (m.latest (.stored .tail)) ∧
      m.latest (.stored .tail) < m.views consumer (.stored .head)
  | .storeTail tail out =>
    tail = capacity.masked (m.latest (.stored .tail)) ∧
      m.latest (.stored .tail) < m.views consumer (.stored .head) ∧
      pushed[m.latest (.stored .tail)]? = some out

variable [DecidableEq θ]

/-- The ring between two accesses, when these items have been pushed. There have been as many pushes as stores
of `head_`, and as many pops as stores of `tail_`. -/
structure RingInv (push : PushPc T capacity) (pop : PopPc T capacity) (pushed : List T) : Prop where
  coherent : m.Coherent
  views : EveryView (RingView consumer m.latest) m
  head : ∀ i, i ≤ m.latest (.stored .head) → (m.history .head i).value = capacity.masked i
  tail : ∀ i, i ≤ m.latest (.stored .tail) → (m.history .tail i).value = capacity.masked i
  length : pushed.length = m.latest (.stored .head)
  ownHead : m.views producer (.stored .head) = m.latest (.stored .head)
  ownTail : m.views consumer (.stored .tail) = m.latest (.stored .tail)
  ownWrites : ∀ i, m.views producer (.written (.slot i)) = m.latest (.written (.slot i))
  ownReads : ∀ i, m.views consumer (.read (.slot i) consumer) = m.latest (.read (.slot i) consumer)
  onlyReads : ∀ i u, u ≠ consumer → m.latest (.read (.slot i) u) = 0
  taken : m.latest (.stored .tail) ≤ m.views consumer (.stored .head)
  room : m.latest (.stored .head) ≤ m.views producer (.stored .tail) + (capacity.size - 1)
  contents : ∀ j item, m.latest (.stored .tail) ≤ j → pushed[j]? = some item →
    m.cells (.slot (capacity.masked j)) = item
  pushKnows : PushKnows producer m push
  popKnows : PopKnows consumer m pushed pop

end Invariant

section Step

variable [DecidableEq θ] [DecidableEq E] [DecidableEq X] [DecidableEq L] {producer consumer : θ}
  {m m' : RingMemory θ L T capacity value content}
  {push : PushPc T capacity} {pop : PopPc T capacity} {pushed : List T}

theorem PushKnows.frame (h : PushKnows producer m push)
    (hhead : m'.latest (.stored .head) = m.latest (.stored .head))
    (htail : m.views producer (.stored .tail) ≤ m'.views producer (.stored .tail))
    (hslots : ∀ i, m'.cells (.slot i) = m.cells (.slot i)) : PushKnows producer m' push := by
  cases push with
  | idle => trivial
  | loadTail item head => exact Eq.trans h (by rw [hhead])
  | writeSlot item head next =>
    obtain ⟨heq, hnext, hroom⟩ := h
    refine ⟨?_, ?_, ?_⟩ <;> rw [hhead]
    · exact heq
    · exact hnext
    · omega
  | storeHead item next =>
    obtain ⟨hnext, hroom, hitem⟩ := h
    refine ⟨?_, ?_, ?_⟩ <;> rw [hhead]
    · exact hnext
    · omega
    · rw [hslots]
      exact hitem

theorem PopKnows.frame (h : PopKnows consumer m pushed pop) (more : List T)
    (htail : m'.latest (.stored .tail) = m.latest (.stored .tail))
    (hhead : m.views consumer (.stored .head) ≤ m'.views consumer (.stored .head)) :
    PopKnows consumer m' (pushed ++ more) pop := by
  cases pop with
  | idle => trivial
  | loadHead tail => exact Eq.trans h (by rw [htail])
  | readSlot tail =>
    obtain ⟨heq, hlt⟩ := h
    refine ⟨?_, ?_⟩ <;> rw [htail]
    · exact heq
    · omega
  | storeTail tail out =>
    obtain ⟨heq, hlt, hout⟩ := h
    refine ⟨?_, ?_, ?_⟩ <;> rw [htail]
    · exact heq
    · omega
    · obtain ⟨hindex, hget⟩ := List.getElem?_eq_some_iff.mp hout
      rw [List.getElem?_append_left hindex]
      exact hout

/-- Accesses to other variables. -/
theorem RingInv.frame {P : Place θ (RingAtomic E) (RingCell capacity X) → Prop}
    (h : RingInv producer consumer m push pop pushed) (htouches : Touches m m' P)
    (hoff : ∀ place, OfRing place → ¬ P place) (hviews : EveryView (RingView consumer m'.latest) m') :
    RingInv producer consumer m' push pop pushed := by
  have hhead := htouches.latest (.stored .head) (hoff (.stored .head) trivial)
  have htail := htouches.latest (.stored .tail) (hoff (.stored .tail) trivial)
  have hslots (i : Fin capacity.size) : m'.cells (.slot i) = m.cells (.slot i) :=
    htouches.cells (.slot i) (hoff (.written (.slot i)) trivial)
  refine {
    coherent := htouches.coherent
    views := hviews
    head := fun i hi => ?_
    tail := fun i hi => ?_
    length := h.length.trans hhead.symm
    ownHead := htouches.own (hoff (.stored .head) trivial) h.ownHead
    ownTail := htouches.own (hoff (.stored .tail) trivial) h.ownTail
    ownWrites := fun i => htouches.own (hoff (.written (.slot i)) trivial) (h.ownWrites i)
    ownReads := fun i => htouches.own (hoff (.read (.slot i) consumer) trivial) (h.ownReads i)
    onlyReads := fun i u hu =>
      (htouches.latest _ (hoff (.read (.slot i) u) trivial)).trans (h.onlyReads i u hu)
    taken := ?_
    room := ?_
    contents := fun j item hj hitem => ?_
    pushKnows := h.pushKnows.frame hhead (htouches.grows producer _) hslots
    popKnows := ?_ }
  · rw [htouches.history .head (hoff (.stored .head) trivial)]
    exact h.head i (by rwa [hhead] at hi)
  · rw [htouches.history .tail (hoff (.stored .tail) trivial)]
    exact h.tail i (by rwa [htail] at hi)
  · rw [htail]
    exact h.taken.trans (htouches.grows consumer _)
  · rw [hhead]
    exact h.room.trans (Nat.add_le_add_right (htouches.grows producer _) _)
  · rw [hslots]
    exact h.contents j item (by rwa [htail] at hj) hitem
  · have hpop := h.popKnows.frame [] htail (htouches.grows consumer _)
    rwa [List.append_nil] at hpop

/-- The numbers of pops and pushes, and what the two threads know of them. -/
theorem RingInv.order (h : RingInv producer consumer m push pop pushed) :
    m.views producer (.stored .tail) ≤ m.latest (.stored .tail) ∧
      m.latest (.stored .tail) ≤ m.views consumer (.stored .head) ∧
      m.views consumer (.stored .head) ≤ m.latest (.stored .head) ∧
      m.latest (.stored .head) ≤ m.views producer (.stored .tail) + (capacity.size - 1) :=
  ⟨h.coherent.le.views producer _, h.taken, h.coherent.le.views consumer _, h.room⟩

/-! ## Loads of the indices -/

/-- An acquire load by any thread. -/
theorem RingInv.loadAcquire (h : RingInv producer consumer m push pop pushed) (t : θ) (a : RingAtomic E)
    (pick : ℕ) : RingInv producer consumer (m.loadAcquire t a pick).1 push pop pushed :=
  h.frame (h.coherent.touches_loadAcquire t a pick) (fun _ _ => id)
    (EveryView.loadAcquire (S := RingView consumer) h.views (joins_ringView consumer)
      (h.coherent.le.views t _) pick)

/-- The producer finds the ring full only behind as many pushes that it does not know to be popped. -/
theorem RingInv.full_iff (h : RingInv producer consumer m push pop pushed) (pick : ℕ) :
    let i := m.loaded producer .tail pick
    capacity.masked (m.latest (.stored .head) + 1) = (m.loadAcquire producer .tail pick).2 ↔
      m.latest (.stored .head) = i + (capacity.size - 1) := by
  intro i
  have hi : i ≤ m.latest (.stored .tail) := h.coherent.loaded_le producer _ pick
  obtain ⟨_, htaken, hknown, hroom⟩ := (h.loadAcquire producer .tail pick).order
  rw [h.coherent.loadAcquire_view] at hroom
  change m.latest (.stored .tail) ≤ _ at htaken
  change _ ≤ m.latest (.stored .head) at hknown
  change m.latest (.stored .head) ≤ i + _ at hroom
  have hvalue : (m.loadAcquire producer .tail pick).2 = capacity.masked i := h.tail i hi
  have hsize := capacity.two_le
  rw [hvalue]
  constructor
  · intro hfull
    by_contra hne
    exact capacity.masked_ne (i := i) (j := m.latest (.stored .head) + 1) (by omega) (by omega) hfull
  · intro hfull
    ext
    rw [capacity.masked_val, capacity.masked_val,
      show m.latest (.stored .head) + 1 = i + capacity.size by omega, Nat.add_mod_right]

/-- The consumer finds the ring empty only when it has popped every push that it knows of. -/
theorem RingInv.empty_iff (h : RingInv producer consumer m push pop pushed) (pick : ℕ) :
    let i := m.loaded consumer .head pick
    capacity.masked (m.latest (.stored .tail)) = (m.loadAcquire consumer .head pick).2 ↔
      m.latest (.stored .tail) = i := by
  intro i
  have hi : i ≤ m.latest (.stored .head) := h.coherent.loaded_le consumer _ pick
  obtain ⟨hknown, htaken, _, hroom⟩ := (h.loadAcquire consumer .head pick).order
  rw [h.coherent.loadAcquire_view] at htaken
  change _ ≤ m.latest (.stored .tail) at hknown
  change m.latest (.stored .tail) ≤ i at htaken
  change m.latest (.stored .head) ≤ _ + _ at hroom
  have hvalue : (m.loadAcquire consumer .head pick).2 = capacity.masked i := h.head i hi
  have hsize := capacity.two_le
  rw [hvalue]
  constructor
  · intro hempty
    by_contra hne
    exact capacity.masked_ne (i := m.latest (.stored .tail)) (j := i) (by omega) (by omega) hempty.symm
  · intro hempty
    rw [hempty]

/-! ## Accesses to other variables -/

/-- A lock, an unlock or a join. -/
theorem RingInv.synchronize (h : RingInv producer consumer m push pop pushed)
    (htouches : Touches m m' fun _ => False) (hviews : EveryView (RingView consumer m'.latest) m') :
    RingInv producer consumer m' push pop pushed :=
  h.frame htouches (fun _ _ => id) hviews

theorem RingInv.readOther (h : RingInv producer consumer m push pop pushed) (t : θ) (x : X) :
    RingInv producer consumer (m.readCell t (.other x)).1 push pop pushed := by
  refine h.frame (h.coherent.touches_readCell t (.other x)) (fun _ hplace heq => ?_) ?_
  · rw [heq] at hplace
    exact hplace
  · exact EveryView.readCell (S := RingView consumer) h.views
      (fun view hview => hview.bumpedOff id (Or.inl rfl)) ((h.views.views t).bumpedOff id (Or.inr rfl))

theorem RingInv.writeOther [Fintype θ] (h : RingInv producer consumer m push pop pushed) (t : θ) (x : X)
    (stored : content x) : RingInv producer consumer (m.writeCell t (.other x) stored) push pop pushed := by
  refine h.frame (h.coherent.touches_writeCell t (.other x) stored) (fun _ hplace heq => ?_) ?_
  · rw [heq] at hplace
    exact hplace
  · exact EveryView.writeCell (S := RingView consumer) (n := .other x) h.views
      (fun view hview => hview.bumpedOff id (Or.inl rfl)) ((h.views.views t).bumpedOff id (Or.inr rfl)) stored

theorem RingInv.storeOther (h : RingInv producer consumer m push pop pushed) (t : θ) (e : E)
    (stored : value e) : RingInv producer consumer (m.storeRelease t (.other e) stored) push pop pushed := by
  refine h.frame (h.coherent.touches_storeRelease t (.other e) stored) (fun _ hplace heq => ?_) ?_
  · rw [heq] at hplace
    exact hplace
  · exact EveryView.append (S := RingView consumer) h.views
      (fun view hview => hview.bumpedOff id (Or.inl rfl)) ((h.views.views t).bumpedOff id (Or.inr rfl))
      ((h.views.views t).bumpedOff id (Or.inr rfl))

theorem RingInv.modifyOther (h : RingInv producer consumer m push pop pushed) (t : θ) (e : E)
    (f : value e → value e) :
    RingInv producer consumer (m.modifyRelaxed t (.other e) f) push pop pushed := by
  refine h.frame (h.coherent.touches_modifyRelaxed t (.other e) f) (fun _ hplace heq => ?_) ?_
  · rw [heq] at hplace
    exact hplace
  · exact EveryView.append (S := RingView consumer) h.views
      (fun view hview => hview.bumpedOff id (Or.inl rfl)) ((h.views.views t).bumpedOff id (Or.inr rfl))
      ((h.views.messages _ _ le_rfl).bumpedOff id (Or.inr rfl))

/-! ## The accesses to the slots and the stores of the indices -/

/-- The producer writes the slot without a race. -/
theorem RingInv.writeSlot [Fintype θ] {item : T} {head next : Fin capacity.size}
    (h : RingInv producer consumer m (.writeSlot item head next) pop pushed) :
    RingInv producer consumer (m.writeCell producer (.slot head) item) (.storeHead item next) pop pushed ∧
      (m.writeCell producer (.slot head) item).racy = m.racy := by
  obtain ⟨rfl, hnext, hroom⟩ := h.pushKnows
  obtain ⟨hknown, htaken, hfilled, _⟩ := h.order
  have hsize := capacity.two_le
  have hlt : m.latest (.stored .head) < m.latest (.stored .tail) + capacity.size := by omega
  have hknows : Knows m.latest (.slot (capacity.masked (m.latest (.stored .head)))) (m.views producer) := by
    refine ⟨h.ownWrites _, fun u => ?_⟩
    by_cases hu : u = consumer
    · subst hu
      exact (h.views.views producer).freed _ le_rfl (by omega)
    · have hle : m.views producer (.read (.slot (capacity.masked (m.latest (.stored .head)))) u) ≤
          m.latest (.read (.slot (capacity.masked (m.latest (.stored .head)))) u) :=
        h.coherent.le.views producer _
      have hnone := h.onlyReads (capacity.masked (m.latest (.stored .head))) u hu
      omega
  set slot := capacity.masked (m.latest (.stored .head)) with hslot
  have htouches := h.coherent.touches_writeCell producer (.slot slot) item
  have hother {place : Place θ (RingAtomic E) (RingCell capacity X)} (hplace : place ≠ .written (.slot slot)) :
      (m.writeCell producer (.slot slot) item).latest place = m.latest place := htouches.latest place hplace
  refine ⟨?_, ?_⟩
  · refine {
      coherent := htouches.coherent
      views := EveryView.writeCell (S := RingView consumer) h.views
        (fun view hview => hview.written hlt (Or.inl rfl))
        ((h.views.views producer).written hlt (Or.inr rfl)) item
      head := fun i hi => h.head i (by rwa [hother (by simp)] at hi)
      tail := fun i hi => h.tail i (by rwa [hother (by simp)] at hi)
      length := h.length.trans (hother (by simp)).symm
      ownHead := htouches.own (by simp) h.ownHead
      ownTail := htouches.own (by simp) h.ownTail
      ownWrites := fun i => ?_
      ownReads := fun i => htouches.own (by simp) (h.ownReads i)
      onlyReads := fun i u hu => (hother (by simp)).trans (h.onlyReads i u hu)
      taken := ?_
      room := ?_
      contents := fun j item' hj hget => ?_
      pushKnows := ?_
      popKnows := ?_ }
    · show Function.update m.views producer _ producer (.written (.slot i)) = _
      rw [Function.update_self]
      exact bump_congr (h.ownWrites i)
    · rw [hother (by simp)]
      exact h.taken.trans (htouches.grows consumer _)
    · have htail : m.views producer (.stored .tail) ≤
          (m.writeCell producer (.slot slot) item).views producer (.stored .tail) := htouches.grows producer _
      rw [hother (by simp)]
      omega
    · rw [hother (by simp)] at hj
      have hindex := (List.getElem?_eq_some_iff.mp hget).1
      have hlength := h.length
      have hne := (capacity.masked_ne (i := j) (j := m.latest (.stored .head)) (by omega) (by omega)).symm
      show Function.update m.cells _ _ (.slot (capacity.masked j)) = item'
      rw [Function.update_of_ne (by simpa [hslot] using hne)]
      exact h.contents j item' hj hget
    · refine ⟨?_, ?_, ?_⟩ <;> rw [hother (by simp)]
      · exact hnext
      · exact lt_of_lt_of_le hroom (Nat.add_le_add_right (htouches.grows producer _) _)
      · exact Function.update_self ..
    · have hpop := h.popKnows.frame [] (hother (by simp)) (htouches.grows consumer _)
      rwa [List.append_nil] at hpop
  · exact (hknows.writeCell item).2

/-- The store of `head_` makes the push. -/
theorem RingInv.storeHead {item : T} {next : Fin capacity.size}
    (h : RingInv producer consumer m (.storeHead item next) pop pushed) :
    RingInv producer consumer (m.storeRelease producer .head next) .idle pop (pushed ++ [item]) := by
  obtain ⟨hnext, hroom, hitem⟩ := h.pushKnows
  have hlength := h.length
  have htouches := h.coherent.touches_storeRelease producer .head next
  have hhead : (m.storeRelease producer .head next).latest (.stored .head) = m.latest (.stored .head) + 1 := by
    rw [latest_storeRelease, bump_self]
  have hother {place : Place θ (RingAtomic E) (RingCell capacity X)} (hplace : place ≠ .stored .head) :
      (m.storeRelease producer .head next).latest place = m.latest place := htouches.latest place hplace
  refine {
    coherent := htouches.coherent
    views := EveryView.append (S := RingView consumer) h.views
      (fun view hview => hview.storedHead (Or.inl rfl) (Or.inl rfl))
      ((h.views.views producer).storedHead (Or.inr rfl) (Or.inr h.ownWrites))
      ((h.views.views producer).storedHead (Or.inr rfl) (Or.inr h.ownWrites))
    head := fun i hi => ?_
    tail := fun i hi => ?_
    length := ?_
    ownHead := ?_
    ownTail := htouches.own (by simp) h.ownTail
    ownWrites := fun i => htouches.own (by simp) (h.ownWrites i)
    ownReads := fun i => htouches.own (by simp) (h.ownReads i)
    onlyReads := fun i u hu => (hother (by simp)).trans (h.onlyReads i u hu)
    taken := ?_
    room := ?_
    contents := fun j item' hj hget => ?_
    pushKnows := trivial
    popKnows := h.popKnows.frame [item] (hother (by simp)) (htouches.grows consumer _) }
  · rw [hhead] at hi
    rw [history_storeRelease_value m producer .head next i]
    split_ifs with hnew
    · rw [hnew, hnext]
    · exact h.head i (by omega)
  · rw [hother (by simp)] at hi
    rw [history_storeRelease_of_ne m producer (a := .head) next (by simp)]
    exact h.tail i hi
  · rw [hhead, List.length_append, hlength]
    rfl
  · show Function.update m.views producer _ producer (.stored .head) = _
    rw [Function.update_self]
    exact bump_congr h.ownHead
  · rw [hother (by simp)]
    exact h.taken.trans (htouches.grows consumer _)
  · have htail : m.views producer (.stored .tail) ≤
        (m.storeRelease producer .head next).views producer (.stored .tail) := htouches.grows producer _
    rw [hhead]
    omega
  · rw [hother (by simp)] at hj
    show m.cells (.slot (capacity.masked j)) = item'
    by_cases hlast : j < pushed.length
    · rw [List.getElem?_append_left hlast] at hget
      exact h.contents j item' hj hget
    · rw [List.getElem?_append_right (by omega)] at hget
      have hindex := (List.getElem?_eq_some_iff.mp hget).1
      rw [List.length_singleton] at hindex
      obtain rfl : j = m.latest (.stored .head) := by omega
      rw [← hlength, Nat.sub_self] at hget
      rw [hitem]
      exact Option.some.inj hget

/-- The consumer reads the oldest item without a race. -/
theorem RingInv.readSlot {tail : Fin capacity.size}
    (h : RingInv producer consumer m push (.readSlot tail) pushed) :
    RingInv producer consumer (m.readCell consumer (.slot tail)).1 push
        (.storeTail tail (m.readCell consumer (.slot tail)).2) pushed ∧
      (m.readCell consumer (.slot tail)).1.racy = m.racy := by
  obtain ⟨rfl, hlt⟩ := h.popKnows
  obtain ⟨_, _, hfilled, hroom⟩ := h.order
  have hlength := h.length
  have hknows := (h.views.views consumer).filled _ le_rfl hlt
  have htouches := h.coherent.touches_readCell consumer (.slot (capacity.masked (m.latest (.stored .tail))))
  have hother {place : Place θ (RingAtomic E) (RingCell capacity X)}
      (hplace : place ≠ .read (.slot (capacity.masked (m.latest (.stored .tail)))) consumer) :
      (m.readCell consumer (.slot (capacity.masked (m.latest (.stored .tail))))).1.latest place =
        m.latest place := htouches.latest place hplace
  refine ⟨?_, ?_⟩
  · refine {
      coherent := htouches.coherent
      views := EveryView.readCell (S := RingView consumer) h.views
        (fun view hview => hview.read (by omega) (Or.inl rfl))
        ((h.views.views consumer).read (by omega) (Or.inr rfl))
      head := fun i hi => h.head i (by rwa [hother (by simp)] at hi)
      tail := fun i hi => h.tail i (by rwa [hother (by simp)] at hi)
      length := h.length.trans (hother (by simp)).symm
      ownHead := htouches.own (by simp) h.ownHead
      ownTail := htouches.own (by simp) h.ownTail
      ownWrites := fun i => htouches.own (by simp) (h.ownWrites i)
      ownReads := fun i => ?_
      onlyReads := fun i u hu => (hother (by simp [hu])).trans (h.onlyReads i u hu)
      taken := ?_
      room := ?_
      contents := fun j item hj hget => h.contents j item (by rwa [hother (by simp)] at hj) hget
      pushKnows := h.pushKnows.frame (hother (by simp)) (htouches.grows producer _) fun _ => rfl
      popKnows := ?_ }
    · show Function.update m.views consumer _ consumer (.read (.slot i) consumer) = _
      rw [Function.update_self]
      exact bump_congr (h.ownReads i)
    · rw [hother (by simp)]
      exact h.taken.trans (htouches.grows consumer _)
    · rw [hother (by simp)]
      exact h.room.trans (Nat.add_le_add_right (htouches.grows producer _) _)
    · refine ⟨?_, ?_, ?_⟩ <;> rw [hother (by simp)]
      · exact lt_of_lt_of_le hlt (htouches.grows consumer _)
      · have hindex : m.latest (.stored .tail) < pushed.length := by omega
        rw [List.getElem?_eq_getElem hindex]
        exact congrArg some (h.contents _ _ le_rfl (List.getElem?_eq_getElem hindex)).symm
  · show (m.racy || !decide _) = m.racy
    rw [decide_eq_true hknows, Bool.not_true, Bool.or_false]

/-- The store of `tail_` makes the pop. -/
theorem RingInv.storeTail {tail : Fin capacity.size} {out : T}
    (h : RingInv producer consumer m push (.storeTail tail out) pushed) :
    RingInv producer consumer (m.storeRelease consumer .tail (capacity.masked (tail + 1))) push .idle pushed ∧
      pushed[m.latest (.stored .tail)]? = some out := by
  obtain ⟨rfl, hlt, hout⟩ := h.popKnows
  refine ⟨?_, hout⟩
  rw [capacity.masked_add]
  set next := capacity.masked (m.latest (.stored .tail) + 1) with hnext
  have htouches := h.coherent.touches_storeRelease consumer .tail next
  have htail : (m.storeRelease consumer .tail next).latest (.stored .tail) = m.latest (.stored .tail) + 1 := by
    rw [latest_storeRelease, bump_self]
  have hother {place : Place θ (RingAtomic E) (RingCell capacity X)} (hplace : place ≠ .stored .tail) :
      (m.storeRelease consumer .tail next).latest place = m.latest place := htouches.latest place hplace
  refine {
    coherent := htouches.coherent
    views := EveryView.append (S := RingView consumer) h.views
      (fun view hview => hview.storedTail (Or.inl rfl) (Or.inl rfl))
      ((h.views.views consumer).storedTail (Or.inr rfl) (Or.inr h.ownReads))
      ((h.views.views consumer).storedTail (Or.inr rfl) (Or.inr h.ownReads))
    head := fun i hi => ?_
    tail := fun i hi => ?_
    length := h.length.trans (hother (by simp)).symm
    ownHead := htouches.own (by simp) h.ownHead
    ownTail := ?_
    ownWrites := fun i => htouches.own (by simp) (h.ownWrites i)
    ownReads := fun i => htouches.own (by simp) (h.ownReads i)
    onlyReads := fun i u hu => (hother (by simp)).trans (h.onlyReads i u hu)
    taken := ?_
    room := ?_
    contents := fun j item hj hget => h.contents j item (by omega) hget
    pushKnows := h.pushKnows.frame (hother (by simp)) (htouches.grows producer _) fun _ => rfl
    popKnows := trivial }
  · rw [hother (by simp)] at hi
    rw [history_storeRelease_of_ne m consumer (a := .tail) next (by simp)]
    exact h.head i hi
  · rw [htail] at hi
    rw [history_storeRelease_value m consumer .tail next i]
    split_ifs with hnew
    · rw [hnew]
    · exact h.tail i (by omega)
  · show Function.update m.views consumer _ consumer (.stored .tail) = _
    rw [Function.update_self]
    exact bump_congr h.ownTail
  · rw [htail]
    exact (Nat.succ_le_of_lt hlt).trans (htouches.grows consumer _)
  · rw [hother (by simp)]
    exact h.room.trans (Nat.add_le_add_right (htouches.grows producer _) _)

/-! ## One access -/

/-- What the answer to a call says: a refused push is behind as many pushes as the ring holds items that the
producer does not know to be popped, and a pop that finds nothing is behind the pops of all the items whose
push the consumer knows of. -/
def Honest (producer consumer : θ) (m : RingMemory θ L T capacity value content) :
    Option (Op T × Answer T) → Prop
  | some (.push _, .pushed false) =>
    m.latest (.stored .head) = m.views producer (.stored .tail) + (capacity.size - 1)
  | some (.pop, .popped none) => m.latest (.stored .tail) = m.views consumer (.stored .head)
  | _ => True

/-- An access that leads to a ring in order, without a race. -/
structure RingStep (producer consumer : θ) (m m' : RingMemory θ L T capacity value content)
    (push : PushPc T capacity) (pop : PopPc T capacity) (pushed : List T)
    (answer : Option (Op T × Answer T)) : Prop where
  touches : Touches m m' OfRing
  locks : m'.holder = m.holder ∧ m'.released = m.released
  inv : RingInv producer consumer m' push pop (pushed ++ pushedItems answer.toList)
  racy : m'.racy = m.racy
  popped : (pushed ++ pushedItems answer.toList).take (m'.latest (.stored .tail)) =
    pushed.take (m.latest (.stored .tail)) ++ poppedItems answer.toList
  honest : Honest producer consumer m' answer

/-- An access that pushes and pops nothing. -/
theorem RingInv.quiet (h : RingInv producer consumer m' push pop pushed) {answer : Option (Op T × Answer T)}
    (htouches : Touches m m' OfRing) (hlocks : m'.holder = m.holder ∧ m'.released = m.released)
    (hpushed : pushedItems answer.toList = []) (hpopped : poppedItems answer.toList = [])
    (hracy : m'.racy = m.racy) (htail : m'.latest (.stored .tail) = m.latest (.stored .tail))
    (hhonest : Honest producer consumer m' answer) :
    RingStep producer consumer m m' push pop pushed answer := by
  refine ⟨htouches, hlocks, ?_, hracy, ?_, hhonest⟩
  · rw [hpushed, List.append_nil]
    exact h
  · rw [hpushed, hpopped, List.append_nil, List.append_nil, htail]

theorem RingInv.pushStep [Fintype θ] (h : RingInv producer consumer m push pop pushed) (offered : T)
    (pick : ℕ) :
    let result := RtpStreamer.pushStep producer m push offered pick
    RingStep producer consumer m result.1 result.2.1 pop pushed result.2.2 := by
  cases push with
  | idle =>
    unfold RtpStreamer.pushStep
    rw [h.coherent.loadRelaxed_own h.ownHead pick]
    refine RingInv.quiet ?_ h.coherent.touches_refl ⟨rfl, rfl⟩ rfl rfl rfl rfl trivial
    exact { h with pushKnows := h.head _ le_rfl }
  | loadTail item head =>
    have hload := h.loadAcquire producer .tail pick
    have htouches : Touches m (m.loadAcquire producer .tail pick).1 OfRing :=
      (h.coherent.touches_loadAcquire producer .tail pick).mono fun _ => False.elim
    have hfull := h.full_iff pick
    have hhead : head = capacity.masked (m.latest (.stored .head)) := h.pushKnows
    have hview := h.coherent.loadAcquire_view producer .tail pick
    have hnext : capacity.masked (head + 1) = capacity.masked (m.latest (.stored .head) + 1) := by
      rw [hhead, capacity.masked_add]
    unfold RtpStreamer.pushStep
    dsimp only
    rw [hnext]
    split_ifs with hrefused
    · have hidle : RingInv producer consumer (m.loadAcquire producer .tail pick).1 .idle pop pushed :=
        { hload with pushKnows := trivial }
      refine hidle.quiet htouches ⟨rfl, rfl⟩ rfl rfl rfl rfl ?_
      exact (hfull.mp hrefused).trans (by rw [hview])
    · refine RingInv.quiet { hload with pushKnows := ?_ } htouches ⟨rfl, rfl⟩ rfl rfl rfl rfl trivial
      have hroom := hload.room
      rw [hview] at hroom
      refine ⟨hhead, rfl, ?_⟩
      rw [hview]
      exact lt_of_le_of_ne hroom fun heq => hrefused (hfull.mpr heq)
  | writeSlot item head next =>
    obtain ⟨hinv, hracy⟩ := h.writeSlot
    have htouches := h.coherent.touches_writeCell producer (.slot head) item
    exact hinv.quiet (htouches.mono fun _ => ofRing_of_eq trivial) ⟨rfl, rfl⟩ rfl rfl hracy
      (htouches.latest _ (by simp)) trivial
  | storeHead item next =>
    have hinv := h.storeHead
    have hlength := h.length
    obtain ⟨_, htaken, hfilled, _⟩ := h.order
    refine ⟨(h.coherent.touches_storeRelease producer .head next).mono fun _ => ofRing_of_eq trivial,
      ⟨rfl, rfl⟩, hinv, rfl, ?_, trivial⟩
    show (pushed ++ [item]).take ((m.storeRelease producer .head next).latest (.stored .tail)) =
      pushed.take (m.latest (.stored .tail)) ++ []
    rw [latest_storeRelease, bump_of_ne (by simp), List.append_nil,
      List.take_append_of_le_length (by omega)]

theorem RingInv.popStep (h : RingInv producer consumer m push pop pushed) (pick : ℕ) :
    let result := RtpStreamer.popStep consumer m pop pick
    RingStep producer consumer m result.1 push result.2.1 pushed result.2.2 := by
  cases pop with
  | idle =>
    unfold RtpStreamer.popStep
    rw [h.coherent.loadRelaxed_own h.ownTail pick]
    refine RingInv.quiet ?_ h.coherent.touches_refl ⟨rfl, rfl⟩ rfl rfl rfl rfl trivial
    exact { h with popKnows := h.tail _ le_rfl }
  | loadHead tail =>
    have hload := h.loadAcquire consumer .head pick
    have htouches : Touches m (m.loadAcquire consumer .head pick).1 OfRing :=
      (h.coherent.touches_loadAcquire consumer .head pick).mono fun _ => False.elim
    have hempty := h.empty_iff pick
    have htail : tail = capacity.masked (m.latest (.stored .tail)) := h.popKnows
    have hview := h.coherent.loadAcquire_view consumer .head pick
    unfold RtpStreamer.popStep
    dsimp only
    rw [htail]
    split_ifs with hnone
    · have hidle : RingInv producer consumer (m.loadAcquire consumer .head pick).1 push .idle pushed :=
        { hload with popKnows := trivial }
      refine hidle.quiet htouches ⟨rfl, rfl⟩ rfl rfl rfl rfl ?_
      exact (hempty.mp hnone).trans (by rw [hview])
    · refine RingInv.quiet { hload with popKnows := ?_ } htouches ⟨rfl, rfl⟩ rfl rfl rfl rfl trivial
      have htaken := hload.taken
      rw [hview] at htaken
      refine ⟨rfl, ?_⟩
      rw [hview]
      exact lt_of_le_of_ne htaken fun heq => hnone (hempty.mpr heq)
  | readSlot tail =>
    obtain ⟨hinv, hracy⟩ := h.readSlot
    have htouches := h.coherent.touches_readCell consumer (.slot tail)
    exact hinv.quiet (htouches.mono fun _ => ofRing_of_eq trivial) ⟨rfl, rfl⟩ rfl rfl hracy
      (htouches.latest _ (by simp)) trivial
  | storeTail tail out =>
    obtain ⟨hinv, hout⟩ := h.storeTail
    have htouches := h.coherent.touches_storeRelease consumer .tail (capacity.masked (tail + 1))
    refine ⟨htouches.mono fun _ => ofRing_of_eq trivial, ⟨rfl, rfl⟩, ?_, rfl, ?_, trivial⟩
    · show RingInv producer consumer _ push .idle (pushed ++ [])
      rw [List.append_nil]
      exact hinv
    · show (pushed ++ []).take ((m.storeRelease consumer .tail _).latest (.stored .tail)) =
        pushed.take (m.latest (.stored .tail)) ++ [out]
      rw [latest_storeRelease, bump_self, List.append_nil, List.take_add_one, hout]
      rfl

theorem ringInv_initial (producer consumer : θ) (initial : Vector T capacity.size)
    (values : (e : E) → value e) (contents : (x : X) → content x) :
    RingInv producer consumer
      (.initial (ringValues capacity values) (ringCells initial contents) :
        RingMemory θ L T capacity value content) .idle .idle [] where
  coherent := Coherent.initial _ _
  views := EveryView.initial _ _ ⟨le_rfl, fun _ _ _ => rfl, fun _ _ _ => rfl⟩
  head := fun i hi => by rw [Nat.le_zero.mp hi]; exact (capacity.masked_self capacity.zero).symm
  tail := fun i hi => by rw [Nat.le_zero.mp hi]; exact (capacity.masked_self capacity.zero).symm
  length := rfl
  ownHead := rfl
  ownTail := rfl
  ownWrites := fun _ => rfl
  ownReads := fun _ => rfl
  onlyReads := fun _ _ _ => rfl
  taken := le_rfl
  room := Nat.zero_le _
  contents := fun _ _ _ hget => absurd hget (by simp)
  pushKnows := trivial
  popKnows := trivial

end Step

/-! ## The newest stores -/

section Newest

variable [DecidableEq θ] [Fintype θ] [DecidableEq E] [DecidableEq X] [DecidableEq L]
  {m m' : RingMemory θ L T capacity value content} {push : PushPc T capacity} {pop : PopPc T capacity}
  {strong : SpscRing T capacity}

/-- The ring of `SpscRing.lean`, in the same state. -/
structure Newest (m : RingMemory θ L T capacity value content) (push : PushPc T capacity)
    (pop : PopPc T capacity) (strong : SpscRing T capacity) : Prop where
  coherent : m.Coherent
  head : (m.history .head (m.latest (.stored .head))).value = strong.head
  tail : (m.history .tail (m.latest (.stored .tail))).value = strong.tail
  buffer : ∀ i, m.cells (.slot i) = strong.buffer.get i
  producer : push = strong.producer
  consumer : pop = strong.consumer

theorem Newest.frame {Q : Place θ (RingAtomic E) (RingCell capacity X) → Prop} (h : Newest m push pop strong)
    (htouches : Touches m m' Q) (hoff : ∀ place, OfRing place → ¬ Q place) : Newest m' push pop strong where
  coherent := htouches.coherent
  head := by
    rw [htouches.latest _ (hoff (.stored .head) trivial), htouches.history _ (hoff (.stored .head) trivial)]
    exact h.head
  tail := by
    rw [htouches.latest _ (hoff (.stored .tail) trivial), htouches.history _ (hoff (.stored .tail) trivial)]
    exact h.tail
  buffer := by
    intro i
    rw [htouches.cells _ (hoff (.written (.slot i)) trivial)]
    exact h.buffer i
  producer := h.producer
  consumer := h.consumer

theorem Newest.readOther (h : Newest m push pop strong) (t : θ) (x : X) :
    Newest (m.readCell t (.other x)).1 push pop strong := by
  refine h.frame (h.coherent.touches_readCell t (.other x)) ?_
  rintro place hplace rfl
  exact hplace

theorem Newest.writeOther (h : Newest m push pop strong) (t : θ) (x : X) (written : content x) :
    Newest (m.writeCell t (.other x) written) push pop strong := by
  refine h.frame (h.coherent.touches_writeCell t (.other x) written) ?_
  rintro place hplace rfl
  exact hplace

theorem Newest.pushStep (h : Newest m push pop strong) (t : θ) (item : T) {pick : ℕ}
    (hhead : m.latest (.stored .head) ≤ pick) (htail : m.latest (.stored .tail) ≤ pick) :
    let result := RtpStreamer.pushStep t m push item pick
    Newest result.1 result.2.1 pop (strong.producerStep item).1 ∧
      result.2.2 = (strong.producerStep item).2 := by
  obtain ⟨hcoherent, hhead', htail', hbuffer, hproducer, hconsumer⟩ := h
  have hloadHead := hcoherent.loaded_newest t hhead
  have hloadTail := hcoherent.loaded_newest t htail
  unfold SpscRing.producerStep RtpStreamer.pushStep
  rw [← hproducer]
  cases push with
  | idle =>
    refine ⟨⟨hcoherent.loadRelaxed t _ pick, hhead', htail', hbuffer, ?_, hconsumer⟩, rfl⟩
    show PushPc.loadTail item (m.history .head _).value = .loadTail item strong.head
    rw [hloadHead, hhead']
  | loadTail item head =>
    have hvalue : (m.loadAcquire t .tail pick).2 = strong.tail := by
      rw [← htail', ← hloadTail]
      rfl
    dsimp only
    rw [hvalue]
    split_ifs with hfull
    · exact ⟨⟨hcoherent.loadAcquire t _ pick, hhead', htail', hbuffer, rfl, hconsumer⟩, rfl⟩
    · exact ⟨⟨hcoherent.loadAcquire t _ pick, hhead', htail', hbuffer, rfl, hconsumer⟩, rfl⟩
  | writeSlot item head next =>
    dsimp only
    refine ⟨⟨hcoherent.writeCell t (.slot head) item, ?_, ?_, fun i => ?_, rfl, hconsumer⟩, rfl⟩
    · rw [latest_writeCell, bump_of_ne (by simp)]
      exact hhead'
    · rw [latest_writeCell, bump_of_ne (by simp)]
      exact htail'
    · show Function.update m.cells (.slot head) item (.slot i) = _
      by_cases hi : i = head
      · subst hi
        rw [Function.update_self]
        exact (Vector.getElem_set_self i.isLt).symm
      · rw [Function.update_of_ne (by simpa using hi)]
        have hne : (head : ℕ) ≠ i := fun heq => hi (Fin.ext heq.symm)
        exact (hbuffer i).trans (Vector.getElem_set_ne head.isLt i.isLt hne).symm
  | storeHead item next =>
    dsimp only
    refine ⟨⟨hcoherent.storeRelease t .head next, ?_, ?_, hbuffer, rfl, hconsumer⟩, rfl⟩
    · rw [latest_storeRelease, bump_self, history_storeRelease_value m t .head next,
        if_pos rfl]
    · rw [latest_storeRelease, bump_of_ne (by simp),
        history_storeRelease_of_ne m t (a := .head) next (by simp)]
      exact htail'

theorem Newest.popStep (h : Newest m push pop strong) (t : θ) {pick : ℕ}
    (hhead : m.latest (.stored .head) ≤ pick) (htail : m.latest (.stored .tail) ≤ pick) :
    let result := RtpStreamer.popStep t m pop pick
    Newest result.1 push result.2.1 strong.consumerStep.1 ∧ result.2.2 = strong.consumerStep.2 := by
  obtain ⟨hcoherent, hhead', htail', hbuffer, hproducer, hconsumer⟩ := h
  have hloadHead := hcoherent.loaded_newest t hhead
  have hloadTail := hcoherent.loaded_newest t htail
  unfold SpscRing.consumerStep RtpStreamer.popStep
  rw [← hconsumer]
  cases pop with
  | idle =>
    refine ⟨⟨hcoherent.loadRelaxed t _ pick, hhead', htail', hbuffer, hproducer, ?_⟩, rfl⟩
    show PopPc.loadHead (m.history .tail _).value = .loadHead strong.tail
    rw [hloadTail, htail']
  | loadHead tail =>
    have hvalue : (m.loadAcquire t .head pick).2 = strong.head := by
      rw [← hhead', ← hloadHead]
      rfl
    dsimp only
    rw [hvalue]
    split_ifs with hempty
    · exact ⟨⟨hcoherent.loadAcquire t _ pick, hhead', htail', hbuffer, hproducer, rfl⟩, rfl⟩
    · exact ⟨⟨hcoherent.loadAcquire t _ pick, hhead', htail', hbuffer, hproducer, rfl⟩, rfl⟩
  | readSlot tail =>
    dsimp only
    refine ⟨⟨hcoherent.readCell t _, ?_, ?_, hbuffer, hproducer, ?_⟩, rfl⟩
    · rw [latest_readCell, bump_of_ne (by simp)]
      exact hhead'
    · rw [latest_readCell, bump_of_ne (by simp)]
      exact htail'
    · exact congrArg (PopPc.storeTail tail) (hbuffer tail)
  | storeTail tail out =>
    dsimp only
    refine ⟨⟨hcoherent.storeRelease t .tail _, ?_, ?_, hbuffer, hproducer, rfl⟩, rfl⟩
    · rw [latest_storeRelease, bump_of_ne (by simp),
        history_storeRelease_of_ne m t (a := .tail) (capacity.masked (tail + 1)) (by simp)]
      exact hhead'
    · rw [latest_storeRelease, bump_self,
        history_storeRelease_value m t .tail (capacity.masked (tail + 1)), if_pos rfl]

end Newest

/-! ## Whole runs -/

namespace WeakRing

/-- The ring is in order behind these calls. -/
structure After (ring : WeakRing T capacity) (events : List (Op T × Answer T)) : Prop where
  inv : RingInv .producer .consumer ring.memory ring.producer ring.consumer (pushedItems events)
  racy : ring.memory.racy = false
  popped : poppedItems events = (pushedItems events).take (ring.memory.latest (.stored .tail))

theorem After.step {ring : WeakRing T capacity} {events : List (Op T × Answer T)} (h : After ring events)
    (access : Access T × ℕ) :
    After (ring.step access).1 (events ++ (ring.step access).2.toList) ∧
      Honest .producer .consumer (ring.step access).1.memory (ring.step access).2 := by
  have hafter {ring' : WeakRing T capacity} {answer : Option (Op T × Answer T)}
      (hstep : RingStep .producer .consumer ring.memory ring'.memory ring'.producer ring'.consumer
        (pushedItems events) answer) : After ring' (events ++ answer.toList) := by
    have hpushed : pushedItems (events ++ answer.toList) = pushedItems events ++ pushedItems answer.toList :=
      List.filterMap_append
    have hpopped : poppedItems (events ++ answer.toList) = poppedItems events ++ poppedItems answer.toList :=
      List.filterMap_append
    refine ⟨?_, hstep.racy.trans h.racy, ?_⟩
    · rw [hpushed]
      exact hstep.inv
    · rw [hpushed, hpopped, hstep.popped, h.popped]
  obtain ⟨access, pick⟩ := access
  cases access with
  | producer item =>
    have hstep := h.inv.pushStep item pick
    exact ⟨hafter hstep, hstep.honest⟩
  | consumer =>
    have hstep := h.inv.popStep pick
    exact ⟨hafter hstep, hstep.honest⟩

theorem after_run (initial : Vector T capacity.size) (accesses : List (Access T × ℕ)) :
    After ((weakRingSystem capacity initial).run accesses)
      ((weakRingSystem capacity initial).history accesses) := by
  refine DetSystem.run_induction (M := weakRingSystem capacity initial)
    (P := fun accesses ring => After ring ((weakRingSystem capacity initial).history accesses))
    ⟨ringInv_initial _ _ initial _ _, rfl, rfl⟩ (fun accesses access h => ?_) accesses
  rw [DetSystem.history_snoc]
  exact (After.step h access).1

/-- **Release and acquire suffice.** Whatever the schedule and whatever old indices the loads return: no
access to a slot races; what has been popped, followed by at most one item less than the ring has slots, is
what has been pushed; and the next call to be refused, if there is one, finds the ring full or empty as far as
its thread knows. -/
theorem race_free_fifo (initial : Vector T capacity.size) (accesses : List (Access T × ℕ)) :
    let system := weakRingSystem capacity initial
    (WeakRing.memory (system.run accesses)).racy = false ∧
    (∃ queued, queued.length ≤ capacity.size - 1 ∧
      pushedItems (system.history accesses) = poppedItems (system.history accesses) ++ queued) ∧
    ∀ access, Honest .producer .consumer (WeakRing.memory (system.run (accesses ++ [access])))
      (system.obs (system.run accesses) access) := by
  intro system
  have hafter : After (system.run accesses) (system.history accesses) := after_run initial accesses
  obtain ⟨hknown, _, _, hroom⟩ := hafter.inv.order
  have hlength := hafter.inv.length
  refine ⟨hafter.racy, ⟨(pushedItems (system.history accesses)).drop
    ((WeakRing.memory (system.run accesses)).latest (.stored .tail)), ?_, ?_⟩, fun access => ?_⟩
  · rw [List.length_drop, hlength]
    omega
  · rw [hafter.popped, List.take_append_drop]
  · rw [DetSystem.run_snoc]
    exact (hafter.step access).2

/-- No queue would answer like this: with an old `head_` the consumer finds nothing, although an item has been
pushed. -/
example : ¬ (BoundedFifo.system Nat 1).Legal
    ((weakRingSystem ⟨2, by decide, by decide⟩ (Vector.replicate 2 0)).history
      (List.replicate 4 (.producer 7, 1) ++ List.replicate 2 (.consumer, 0))) := by
  intro h
  have hanswer : Answer.popped (some 7) = Answer.popped none := (List.cons.inj (List.cons.inj h).2).1
  exact absurd hanswer (by simp)

/-! ## The interleavings -/

/-- A pick of the newest store. -/
def PicksNewest (ring : WeakRing T capacity) (access : Access T × ℕ) : Prop :=
  ring.memory.latest (.stored .head) ≤ access.2 ∧ ring.memory.latest (.stored .tail) ≤ access.2

theorem newest_step {ring : WeakRing T capacity} {strong : SpscRing T capacity}
    (h : Newest ring.memory ring.producer ring.consumer strong) {access : Access T × ℕ}
    (hpick : PicksNewest ring access) :
    Newest (ring.step access).1.memory (ring.step access).1.producer (ring.step access).1.consumer
        (strong.step access.1).1 ∧
      (ring.step access).2 = (strong.step access.1).2 := by
  obtain ⟨access, pick⟩ := access
  cases access with
  | producer item => exact h.pushStep .producer item hpick.1 hpick.2
  | consumer => exact h.popStep .consumer hpick.1 hpick.2

/-- **The interleavings.** With loads of the newest stores the ring answers as the one whose accesses are
sequentially consistent. -/
theorem newest_is_interleaving (initial : Vector T capacity.size) (accesses : List (Access T × ℕ))
    (hnewest : ∀ before access, before ++ [access] <+: accesses →
      PicksNewest ((weakRingSystem capacity initial).run before) access) :
    (weakRingSystem capacity initial).trace accesses =
      (ringSystem capacity initial).trace (accesses.map Prod.fst) := by
  refine DetSystem.trace_eq_of_steps (M := weakRingSystem capacity initial) (N := ringSystem capacity initial)
    (f := Prod.fst) (R := fun ring strong => Newest (WeakRing.memory ring) ring.producer ring.consumer strong)
    (Q := fun ring access => PicksNewest ring access)
    ⟨Coherent.initial _ _, rfl, rfl, fun _ => rfl, rfl, rfl⟩ ?_ ?_ accesses hnewest
  · intro ring strong access hpick h
    exact (newest_step h hpick).1
  · intro ring strong access hpick h
    exact (newest_step h hpick).2

/-- A push and a pop, with the newest stores. -/
theorem newest_is_interleaving_example :
    let accesses : List (Access Nat × ℕ) := List.replicate 4 (.producer 7, 8) ++ List.replicate 4 (.consumer, 8)
    (weakRingSystem ⟨2, by decide, by decide⟩ (Vector.replicate 2 0)).trace accesses =
      (ringSystem ⟨2, by decide, by decide⟩ (Vector.replicate 2 0)).trace (accesses.map Prod.fst) := by
  intro accesses
  refine @newest_is_interleaving Nat ⟨2, by decide, by decide⟩ (Vector.replicate 2 0) accesses
    fun before access hinit => ?_
  have hall : ∀ k, k ≤ accesses.length → ∀ access ∈ accesses,
      let memory := WeakRing.memory ((weakRingSystem ⟨2, by decide, by decide⟩ (Vector.replicate 2 0)).run
        (accesses.take k))
      memory.latest (.stored .head) ≤ access.2 ∧ memory.latest (.stored .tail) ≤ access.2 := by
    decide +kernel
  have hbefore : before <+: accesses := (List.prefix_append _ _).trans hinit
  rw [List.prefix_iff_eq_take.mp hbefore]
  exact hall before.length hbefore.length_le access (hinit.subset (by simp))

end WeakRing

end RtpStreamer
