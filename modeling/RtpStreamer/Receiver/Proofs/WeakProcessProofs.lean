import RtpStreamer.Receiver.Proofs.ProcessProofs
import RtpStreamer.Receiver.WeakProcess
import RtpStreamer.Ring.Proofs.WeakRingProofs

/-!
# No data race in the receiver

What orders the accesses of the three threads of `receiver.cpp`: the mutex for the jitter buffer, the release
and acquire stores of the indices for the slots of the ring, the release store of `playout_done` for what the
main thread finds in the ring behind it, and the joins for the two counters.
-/

namespace RtpStreamer

open BoundedFifo (pushedItems poppedItems)
open ReleaseAcquire ReleaseAcquire.Memory

variable {P : Platform} {capacity : Capacity}

/-! ## Where the threads are -/

def WeakReceivePc.holdsMutex : WeakReceivePc → Bool
  | .calling _ | .unlocking => true
  | .receiving | .countingMalformed | .locking _ | .loadingDone | .exited => false

def WeakReceivePc.isExited : WeakReceivePc → Bool
  | .exited => true
  | .receiving | .countingMalformed | .locking _ | .calling _ | .unlocking | .loadingDone => false

namespace WeakPlayoutPc

def holdsMutex : WeakPlayoutPc capacity → Bool
  | .pulling _ | .pushing _ _ _ | .countingUnderrun _ | .checking _ | .leaving | .unlocking _ => true
  | .waiting | .locking _ | .storingDone | .exited => false

def isExited : WeakPlayoutPc capacity → Bool
  | .exited => true
  | .waiting | .locking _ | .pulling _ | .pushing _ _ _ | .countingUnderrun _ | .checking _ | .leaving
  | .unlocking _ | .storingDone => false

/-- Where the thread is in `ring.push`. -/
def push : WeakPlayoutPc capacity → PushPc Frame capacity
  | .pushing _ _ push => push
  | .waiting | .locking _ | .pulling _ | .countingUnderrun _ | .checking _ | .leaving | .unlocking _
  | .storingDone | .exited => .idle

/-- The frame that is being pushed. -/
def offered : WeakPlayoutPc capacity → Option Frame
  | .pushing _ frame _ => some frame
  | .waiting | .locking _ | .pulling _ | .countingUnderrun _ | .checking _ | .leaving | .unlocking _
  | .storingDone | .exited => none

end WeakPlayoutPc

namespace WeakMainPc

def holdsMutex : WeakMainPc P capacity → Bool
  | .copying | .unlocking _ => true
  | .popping _ | .loadingDone | .lastPop _ | .joiningReceive | .joiningPlayout | .writing | .locking
  | .printing _ | .exited => false

/-- Where the thread is in `ring.pop`. -/
def pop : WeakMainPc P capacity → PopPc Frame capacity
  | .popping pop | .lastPop pop => pop
  | .loadingDone | .joiningReceive | .joiningPlayout | .writing | .locking | .copying | .unlocking _
  | .printing _ | .exited => .idle

/-- How far the thread has come: it has found `playout_done` set (1), left its loop (2), joined the receive
thread (3) and the playout thread (4), and ended (5). -/
def progress : WeakMainPc P capacity → ℕ
  | .popping _ | .loadingDone => 0
  | .lastPop _ => 1
  | .joiningReceive => 2
  | .joiningPlayout => 3
  | .writing | .locking | .copying | .unlocking _ | .printing _ => 4
  | .exited => 5

end WeakMainPc

/-- Where the threads are, as far as the memory is concerned. -/
structure Position (capacity : Capacity) where
  push : PushPc Frame capacity
  pop : PopPc Frame capacity
  holds : ReceiverThread → Bool
  receiveExited : Bool
  playoutExited : Bool
  progress : ℕ

def WeakProcess.position (process : WeakProcess P capacity) : Position capacity where
  push := process.playout.push
  pop := process.main.pop
  holds
    | .receive => process.receive.holdsMutex
    | .playout => process.playout.holdsMutex
    | .main => process.main.holdsMutex
  receiveExited := process.receive.isExited
  playoutExited := process.playout.isExited
  progress := process.main.progress

/-! ## The jitter buffer behind its mutex -/

section Mutex

variable {m m' : ReceiverMemory P capacity} {holds holds' : ReceiverThread → Bool} {t : ReceiverThread}

/-- The accesses to the jitter buffer. -/
def OfBuffer : Place ReceiverThread (RingAtomic ReceiverAtomic) (RingCell capacity ReceiverCell) → Prop
  | .written (.other .jbuf) | .read (.other .jbuf) _ => True
  | .stored _ | .written (.slot _) | .written (.other .malformedDropped) | .read (.slot _) _
  | .read (.other .malformedDropped) _ => False

/-- The threads that are between locking and unlocking hold the mutex. -/
structure MutexInv (m : ReceiverMemory P capacity) (holds : ReceiverThread → Bool) : Prop where
  guarded : Guarded m .jbufMutex (.other .jbuf)
  holder : ∀ t, m.holder .jbufMutex = some t ↔ holds t = true

theorem MutexInv.frame {Q : Place ReceiverThread (RingAtomic ReceiverAtomic) (RingCell capacity ReceiverCell) → Prop}
    (h : MutexInv m holds) (htouches : Touches m m' Q) (hoff : ∀ place, OfBuffer place → ¬ Q place)
    (hlocks : m'.holder = m.holder ∧ m'.released = m.released) : MutexInv m' holds where
  guarded := h.guarded.frame htouches (hoff (.written (.other .jbuf)) trivial)
    (fun u => hoff (.read (.other .jbuf) u) trivial) (by rw [hlocks.1]) (by rw [hlocks.2])
  holder := by
    intro u
    rw [hlocks.1]
    exact h.holder u

theorem MutexInv.lock (h : MutexInv m holds) (hcoherent : m.Coherent) (hfree : m.holder .jbufMutex = none)
    (ht : holds' t = true) (hothers : ∀ u, u ≠ t → holds' u = holds u) :
    MutexInv (m.lock t .jbufMutex) holds' where
  guarded := h.guarded.lock hcoherent hfree t
  holder := by
    intro u
    rw [holder_lock, Option.some.injEq]
    by_cases hu : u = t
    · subst hu
      exact iff_of_true rfl ht
    · have hnot : ¬ holds u = true := by
        intro hholds
        rw [(h.holder u).mpr hholds] at hfree
        exact Option.some_ne_none u hfree
      rw [hothers u hu]
      exact iff_of_false (fun heq => hu heq.symm) hnot

theorem MutexInv.unlock (h : MutexInv m holds) (ht : holds t = true) (hreleased : holds' t = false)
    (hothers : ∀ u, u ≠ t → holds' u = holds u) : MutexInv (m.unlock t .jbufMutex) holds' where
  guarded := h.guarded.unlock ((h.holder t).mpr ht)
  holder := by
    intro u
    rw [holder_unlock]
    refine iff_of_false (by simp) ?_
    by_cases hu : u = t
    · subst hu
      rw [hreleased]
      exact Bool.false_ne_true
    · intro hholds
      rw [hothers u hu] at hholds
      have hheld := (h.holder t).mpr ht
      rw [(h.holder u).mpr hholds] at hheld
      exact hu (Option.some.inj hheld)

/-- A thread waits for the mutex, or takes it. -/
theorem lockBuffer_cases {α : Type} (t : ReceiverThread) (m : ReceiverMemory P capacity) (before behind : α) :
    lockBuffer t m before behind = (m, before) ∨
      m.holder .jbufMutex = none ∧ lockBuffer t m before behind = (m.lock t .jbufMutex, behind) := by
  unfold lockBuffer
  cases m.holder .jbufMutex with
  | none => exact Or.inr ⟨rfl, rfl⟩
  | some u => exact Or.inl rfl

/-- The holder reads the buffer without a race. -/
theorem MutexInv.read (h : MutexInv m holds) (ht : holds t = true) :
    MutexInv (m.readCell t (.other .jbuf)).1 holds ∧
      (m.readCell t (.other .jbuf)).1.racy = m.racy := by
  obtain ⟨hguarded, hracy⟩ := h.guarded.readCell ((h.holder t).mpr ht)
  exact ⟨⟨hguarded, h.holder⟩, hracy⟩

/-- The holder calls the buffer without a race. -/
theorem MutexInv.call (h : MutexInv m holds) (ht : holds t = true) (call : Call) :
    MutexInv (callBuffer t m call).1 holds ∧ (callBuffer t m call).1.racy = m.racy := by
  obtain ⟨hread, hracy⟩ := h.read ht
  obtain ⟨hguarded, hracy'⟩ := hread.guarded.writeCell ((h.holder t).mpr ht)
    (JitterBuffer.next (m.readCell t (.other .jbuf)).2 call)
  exact ⟨⟨hguarded, h.holder⟩, hracy'.trans hracy⟩

theorem touches_readBuffer (h : m.Coherent) (t : ReceiverThread) :
    Touches m (m.readCell t (.other .jbuf)).1 OfBuffer := by
  refine (h.touches_readCell t (.other .jbuf)).mono ?_
  rintro place rfl
  trivial

theorem touches_callBuffer (h : m.Coherent) (t : ReceiverThread) (call : Call) :
    Touches m (callBuffer t m call).1 OfBuffer := by
  have hread := touches_readBuffer h t
  refine hread.trans ((hread.coherent.touches_writeCell t (.other .jbuf) _).mono ?_)
  rintro place rfl
  trivial

end Mutex

theorem OfBuffer.not_ofRing :
    ∀ {place : Place ReceiverThread (RingAtomic ReceiverAtomic) (RingCell capacity ReceiverCell)},
      OfBuffer place → ¬ OfRing place
  | .written (.other .jbuf), _ => id
  | .read (.other .jbuf) _, _ => id

/-! ## The end of the stream and the counters -/

section Ending

variable {m m' : ReceiverMemory P capacity}
  {Q : Place ReceiverThread (RingAtomic ReceiverAtomic) (RingCell capacity ReceiverCell) → Prop}

/-- `playout_done` has been stored when the playout thread has returned. This store knows of every push. -/
structure DoneInv (m : ReceiverMemory P capacity) (playoutExited : Bool) : Prop where
  stored : m.latest (.stored (.other .playoutDone)) = playoutExited.toNat
  value : ∀ i, i ≤ m.latest (.stored (.other .playoutDone)) →
    (m.history (.other .playoutDone) i).value = decide (0 < i)
  publishes : ∀ i, 0 < i → i ≤ m.latest (.stored (.other .playoutDone)) →
    m.latest (.stored .head) ≤ (m.history (.other .playoutDone) i).view (.stored .head)

theorem DoneInv.frame {playoutExited : Bool} (h : DoneInv m playoutExited) (htouches : Touches m m' Q)
    (hoff : ¬ Q (.stored (.other .playoutDone)))
    (hhead : playoutExited = true → m'.latest (.stored .head) = m.latest (.stored .head)) :
    DoneInv m' playoutExited := by
  have hlatest := htouches.latest _ hoff
  have hhistory := htouches.history _ hoff
  refine ⟨hlatest.trans h.stored, fun i hi => ?_, fun i hpos hi => ?_⟩
  · rw [hhistory]
    exact h.value i (hlatest ▸ hi)
  · rw [hlatest] at hi
    cases playoutExited with
    | false =>
      rw [h.stored] at hi
      exact absurd (hpos.trans_le hi) (Nat.lt_irrefl 0)
    | true =>
      rw [hhistory, hhead rfl]
      exact h.publishes i hpos hi

theorem DoneInv.store (h : DoneInv m false)
    (hown : m.views .playout (.stored .head) = m.latest (.stored .head)) :
    DoneInv (m.storeRelease .playout (.other .playoutDone) true) true := by
  have hnone : m.latest (.stored (.other .playoutDone)) = 0 := h.stored
  have hone : (m.storeRelease .playout (.other .playoutDone) true).latest (.stored (.other .playoutDone)) = 1 := by
    rw [latest_storeRelease, bump_self, hnone]
  refine ⟨hone, fun i hi => ?_, fun i hpos hi => ?_⟩ <;> rw [hone] at hi
  · rw [history_storeRelease_value m .playout (.other .playoutDone) true i, hnone]
    split_ifs with hnew
    · rw [hnew]
      rfl
    · obtain rfl : i = 0 := by omega
      exact h.value 0 (Nat.zero_le _)
  · obtain rfl : i = 0 + 1 := by omega
    rw [← hnone, view_storeRelease m .playout (.other .playoutDone) true, latest_storeRelease,
      bump_of_ne (by simp), bump_of_ne (by simp), hown]

/-- Who loads `true` knows of every push. -/
theorem DoneInv.load {playoutExited : Bool} (h : DoneInv m playoutExited) (hcoherent : m.Coherent)
    (t : ReceiverThread) (pick : ℕ)
    (htrue : (m.loadAcquire t (.other .playoutDone) pick).2 = true) :
    playoutExited = true ∧
      m.latest (.stored .head) ≤ (m.loadAcquire t (.other .playoutDone) pick).1.views t (.stored .head) := by
  have hle := hcoherent.loaded_le t (.other .playoutDone) pick
  have hpos : 0 < m.loaded t (.other .playoutDone) pick := by
    have hvalue := (h.value _ hle).symm.trans htrue
    exact of_decide_eq_true hvalue
  refine ⟨?_, (h.publishes _ hpos hle).trans ?_⟩
  · rw [h.stored] at hle
    cases playoutExited with
    | false => exact absurd (hpos.trans_le hle) (Nat.lt_irrefl 0)
    | true => rfl
  · show _ ≤ Function.update m.views t _ t (.stored .head)
    rw [Function.update_self]
    exact le_max_right _ _

/-- `underruns` has been counted up one by one, by a thread or before it has been joined. -/
structure UnderrunsInv (m : ReceiverMemory P capacity) (t : ReceiverThread) : Prop where
  value : ∀ i, i ≤ m.latest (.stored (.other .underruns)) → (m.history (.other .underruns) i).value = i
  known : m.views t (.stored (.other .underruns)) = m.latest (.stored (.other .underruns))

theorem UnderrunsInv.frame {t : ReceiverThread} (h : UnderrunsInv m t) (htouches : Touches m m' Q)
    (hoff : ¬ Q (.stored (.other .underruns))) : UnderrunsInv m' t where
  value := by
    intro i hi
    rw [htouches.latest _ hoff] at hi
    rw [htouches.history _ hoff]
    exact h.value i hi
  known := htouches.own hoff h.known

theorem UnderrunsInv.count {t : ReceiverThread} (h : UnderrunsInv m t) :
    UnderrunsInv (m.modifyRelaxed t (.other .underruns) fun count => (count : ℕ) + 1) t where
  value := by
    intro i hi
    rw [latest_modifyRelaxed, bump_self] at hi
    rw [history_modifyRelaxed_value m t (.other .underruns) _ i]
    split_ifs with hnew
    · rw [h.value _ le_rfl, hnew]
    · exact h.value i (by omega)
  known := by
    show Function.update m.views t _ t _ = _
    rw [Function.update_self]
    exact bump_congr h.known

/-- A thread that knows of every count loads their number. -/
theorem UnderrunsInv.load {t : ReceiverThread} (h : UnderrunsInv m t) (hcoherent : m.Coherent) (pick : ℕ) :
    (m.loadAcquire t (.other .underruns) pick).2 = m.latest (.stored (.other .underruns)) := by
  have hloaded : m.loaded t (.other .underruns) pick = m.latest (.stored (.other .underruns)) :=
    le_antisymm (hcoherent.loaded_le t _ pick) (h.known ▸ le_max_left _ _)
  exact (h.value _ (hcoherent.loaded_le t _ pick)).trans hloaded

end Ending

/-! ## The order of all accesses -/

section Synced

/-- The accesses to what the main thread reads at its end. -/
def OfCounters : Place ReceiverThread (RingAtomic ReceiverAtomic) (RingCell capacity ReceiverCell) → Prop
  | .stored (.other _) | .written (.other .malformedDropped) | .read (.other .malformedDropped) _ => True
  | .stored .head | .stored .tail | .written (.slot _) | .written (.other .jbuf) | .read (.slot _) _
  | .read (.other .jbuf) _ => False

theorem OfCounters.not_ofBuffer :
    ∀ {place : Place ReceiverThread (RingAtomic ReceiverAtomic) (RingCell capacity ReceiverCell)},
      OfCounters place → ¬ OfBuffer place
  | .stored (.other _), _ => id
  | .written (.other .malformedDropped), _ => id
  | .read (.other .malformedDropped) _, _ => id

theorem OfCounters.not_ofRing :
    ∀ {place : Place ReceiverThread (RingAtomic ReceiverAtomic) (RingCell capacity ReceiverCell)},
      OfCounters place → ¬ OfRing place
  | .stored (.other _), _ => id
  | .written (.other .malformedDropped), _ => id
  | .read (.other .malformedDropped) _, _ => id

/-- The accesses to `malformed_dropped`. -/
def OfMalformed : Place ReceiverThread (RingAtomic ReceiverAtomic) (RingCell capacity ReceiverCell) → Prop
  | .written (.other .malformedDropped) | .read (.other .malformedDropped) _ => True
  | .stored _ | .written (.slot _) | .written (.other .jbuf) | .read (.slot _) _
  | .read (.other .jbuf) _ => False

theorem OfMalformed.of_eq
    {place other : Place ReceiverThread (RingAtomic ReceiverAtomic) (RingCell capacity ReceiverCell)}
    (hother : OfMalformed other) (heq : place = other) : OfMalformed place :=
  heq ▸ hother

theorem OfBuffer.not_ofMalformed :
    ∀ {place : Place ReceiverThread (RingAtomic ReceiverAtomic) (RingCell capacity ReceiverCell)},
      OfBuffer place → ¬ OfMalformed place
  | .written (.other .jbuf), _ => id
  | .read (.other .jbuf) _, _ => id

/-- The thread that accesses `malformed_dropped`, by how far the main thread has come. -/
def malformedOwner (progress : ℕ) : ReceiverThread := if progress < 3 then .receive else .main

/-- The thread that accesses `underruns`, by how far the main thread has come. -/
def underrunsOwner (progress : ℕ) : ReceiverThread := if progress < 4 then .playout else .main

/-- Between two accesses, with the threads at a position, when these frames have been pushed. -/
structure Synced (m : ReceiverMemory P capacity) (pos : Position capacity) (pushed : List Frame) : Prop where
  ring : RingInv .playout .main m pos.push pos.pop pushed
  racy : m.racy = false
  mutex : MutexInv m pos.holds
  malformed : pos.progress < 5 →
    Knows m.latest (.other .malformedDropped) (m.views (malformedOwner pos.progress))
  done : DoneInv m pos.playoutExited
  underruns : UnderrunsInv m (underrunsOwner pos.progress)
  ended : 1 ≤ pos.progress →
    pos.playoutExited = true ∧ m.latest (.stored .head) ≤ m.views .main (.stored .head)
  drained : 2 ≤ pos.progress → m.latest (.stored .tail) = m.latest (.stored .head)
  joined : 3 ≤ pos.progress → pos.receiveExited = true

variable {m m' : ReceiverMemory P capacity} {pos : Position capacity} {pushed pushed' : List Frame}
  {push : PushPc Frame capacity} {pop : PopPc Frame capacity} {holds : ReceiverThread → Bool}
  {Q : Place ReceiverThread (RingAtomic ReceiverAtomic) (RingCell capacity ReceiverCell) → Prop}

/-- The main thread is in its loop as long as the playout thread runs. -/
theorem Synced.progress_of_playing (h : Synced m pos pushed) (hexited : pos.playoutExited = false) :
    pos.progress = 0 := by
  by_contra hne
  have htrue := (h.ended (Nat.one_le_iff_ne_zero.mpr hne)).1
  rw [hexited] at htrue
  exact Bool.false_ne_true htrue

/-- Accesses that leave the three threads where they are with each other. -/
theorem Synced.touched (h : Synced m pos pushed) (htouches : Touches m m' Q)
    (hring : RingInv .playout .main m' push pop pushed') (hracy : m'.racy = m.racy)
    (hmutex : MutexInv m' holds)
    (hmalformed : pos.progress < 5 →
      Knows m'.latest (.other .malformedDropped) (m'.views (malformedOwner pos.progress)))
    (hdone : DoneInv m' pos.playoutExited) (hunderruns : UnderrunsInv m' (underrunsOwner pos.progress))
    (hhead : pos.playoutExited = true → m'.latest (.stored .head) = m.latest (.stored .head))
    (htail : 2 ≤ pos.progress → m'.latest (.stored .tail) = m.latest (.stored .tail)) :
    Synced m' { pos with push := push, pop := pop, holds := holds } pushed' where
  ring := hring
  racy := hracy.trans h.racy
  mutex := hmutex
  malformed := hmalformed
  done := hdone
  underruns := hunderruns
  ended := by
    intro hprogress
    obtain ⟨hexited, hknown⟩ := h.ended hprogress
    refine ⟨hexited, ?_⟩
    rw [hhead hexited]
    exact hknown.trans (htouches.grows .main _)
  drained := by
    intro hprogress
    obtain ⟨hexited, _⟩ := h.ended (Nat.le_of_succ_le hprogress)
    rw [htail hprogress, hhead hexited]
    exact h.drained hprogress
  joined := h.joined

/-- Accesses to the ring or to the jitter buffer, and what only orders. -/
theorem Synced.frame (h : Synced m pos pushed) (htouches : Touches m m' Q)
    (hoff : ∀ place, OfCounters place → ¬ Q place) (hring : RingInv .playout .main m' push pop pushed')
    (hracy : m'.racy = m.racy) (hmutex : MutexInv m' holds)
    (hhead : pos.playoutExited = true → m'.latest (.stored .head) = m.latest (.stored .head))
    (htail : 2 ≤ pos.progress → m'.latest (.stored .tail) = m.latest (.stored .tail)) :
    Synced m' { pos with push := push, pop := pop, holds := holds } pushed' := by
  refine h.touched htouches hring hracy hmutex (fun hprogress => ?_) ?_ ?_ hhead htail
  · exact (h.malformed hprogress).frame htouches (hoff (.written (.other .malformedDropped)) trivial)
      fun u => hoff (.read (.other .malformedDropped) u) trivial
  · exact h.done.frame htouches (hoff (.stored (.other .playoutDone)) trivial) hhead
  · exact h.underruns.frame htouches (hoff (.stored (.other .underruns)) trivial)

/-- An acquire load. -/
theorem Synced.loadAcquire (h : Synced m pos pushed) (t : ReceiverThread) (a : RingAtomic ReceiverAtomic)
    (pick : ℕ) : Synced (m.loadAcquire t a pick).1 pos pushed := by
  have htouches := h.ring.coherent.touches_loadAcquire t a pick
  exact h.frame htouches (fun _ _ => id) (h.ring.loadAcquire t a pick) rfl
    (h.mutex.frame htouches (fun _ _ => id) ⟨rfl, rfl⟩) (fun _ => rfl) fun _ => rfl

theorem Synced.lock (h : Synced m pos pushed) {t : ReceiverThread} (hfree : m.holder .jbufMutex = none)
    (ht : holds t = true) (hothers : ∀ u, u ≠ t → holds u = pos.holds u) :
    Synced (m.lock t .jbufMutex) { pos with holds := holds } pushed := by
  have htouches := h.ring.coherent.touches_lock t .jbufMutex
  exact h.frame htouches (fun _ _ => id)
    (h.ring.synchronize htouches (EveryView.lock (S := RingView .main) h.ring.views (joins_ringView _) t _)) rfl
    (h.mutex.lock h.ring.coherent hfree ht hothers) (fun _ => rfl) fun _ => rfl

theorem Synced.unlock (h : Synced m pos pushed) {t : ReceiverThread} (ht : pos.holds t = true)
    (hreleased : holds t = false) (hothers : ∀ u, u ≠ t → holds u = pos.holds u) :
    Synced (m.unlock t .jbufMutex) { pos with holds := holds } pushed := by
  have htouches := h.ring.coherent.touches_unlock t .jbufMutex
  exact h.frame htouches (fun _ _ => id)
    (h.ring.synchronize htouches (EveryView.unlock (S := RingView .main) h.ring.views t _)) rfl
    (h.mutex.unlock ht hreleased hothers) (fun _ => rfl) fun _ => rfl

theorem Synced.readBuffer (h : Synced m pos pushed) {t : ReceiverThread} (ht : pos.holds t = true) :
    Synced (m.readCell t (.other .jbuf)).1 pos pushed := by
  obtain ⟨hmutex, hracy⟩ := h.mutex.read ht
  have htouches := touches_readBuffer h.ring.coherent t
  exact h.frame htouches (fun _ => OfCounters.not_ofBuffer) (h.ring.readOther t .jbuf) hracy hmutex
    (fun _ => htouches.latest (.stored .head) id) fun _ => htouches.latest (.stored .tail) id

theorem Synced.callBuffer (h : Synced m pos pushed) {t : ReceiverThread} (ht : pos.holds t = true)
    (call : Call) : Synced (RtpStreamer.callBuffer t m call).1 pos pushed := by
  obtain ⟨hmutex, hracy⟩ := h.mutex.call ht call
  have htouches := touches_callBuffer h.ring.coherent t call
  exact h.frame htouches (fun _ => OfCounters.not_ofBuffer)
    ((h.ring.readOther t .jbuf).writeOther t .jbuf _) hracy hmutex
    (fun _ => htouches.latest (.stored .head) id) fun _ => htouches.latest (.stored .tail) id

/-! ### The ring -/

/-- An access of a push that offers one item either leaves that push under way or completes it. -/
theorem pushStep_cases (t : ReceiverThread) (m : ReceiverMemory P capacity) {offered : Frame} (pick : ℕ)
    (h : ∀ item, push.item = some item → item = offered) :
    (∃ m' push', RtpStreamer.pushStep t m push offered pick = (m', push', none) ∧
      push'.item = some offered) ∨
    ∃ m' accepted, RtpStreamer.pushStep t m push offered pick =
      (m', .idle, some (.push offered, .pushed accepted)) := by
  unfold RtpStreamer.pushStep
  cases push with
  | idle => exact Or.inl ⟨_, _, rfl, rfl⟩
  | loadTail item head =>
    obtain rfl := h item rfl
    dsimp only
    split_ifs
    · exact Or.inr ⟨_, false, rfl⟩
    · exact Or.inl ⟨_, _, rfl, rfl⟩
  | writeSlot item head next =>
    obtain rfl := h item rfl
    exact Or.inl ⟨_, _, rfl, rfl⟩
  | storeHead item next =>
    obtain rfl := h item rfl
    exact Or.inr ⟨_, true, rfl⟩

/-- An access of a pop either leaves it under way or completes it. -/
theorem popStep_cases (t : ReceiverThread) (m : ReceiverMemory P capacity) (pop : PopPc Frame capacity)
    (pick : ℕ) :
    (∃ m' pop', RtpStreamer.popStep t m pop pick = (m', pop', none)) ∨
      ∃ m' out, RtpStreamer.popStep t m pop pick = (m', .idle, some (.pop, .popped out)) := by
  unfold RtpStreamer.popStep
  cases pop with
  | idle => exact Or.inl ⟨_, _, rfl⟩
  | loadHead tail =>
    dsimp only
    split_ifs
    · exact Or.inr ⟨_, none, rfl⟩
    · exact Or.inl ⟨_, _, rfl⟩
  | readSlot tail => exact Or.inl ⟨_, _, rfl⟩
  | storeTail tail out => exact Or.inr ⟨_, some out, rfl⟩

theorem Synced.pushStep (h : Synced m pos pushed) (hexited : pos.playoutExited = false) (offered : Frame)
    (pick : ℕ) :
    let result := RtpStreamer.pushStep .playout m pos.push offered pick
    Synced result.1 { pos with push := result.2.1 } (pushed ++ pushedItems result.2.2.toList) := by
  obtain ⟨htouches, hlocks, hring, hracy, _, _⟩ := h.ring.pushStep offered pick
  refine h.frame htouches (fun _ => OfCounters.not_ofRing) hring hracy
    (h.mutex.frame htouches (fun _ => OfBuffer.not_ofRing) hlocks) (fun htrue => ?_) fun hprogress => ?_
  · rw [hexited] at htrue
    exact absurd htrue Bool.false_ne_true
  · rw [h.progress_of_playing hexited] at hprogress
    exact absurd hprogress (by decide)

theorem Synced.popStep (h : Synced m pos pushed) (hprogress : pos.progress < 2) (pick : ℕ) :
    let result := RtpStreamer.popStep .main m pos.pop pick
    Synced result.1 { pos with pop := result.2.1 } pushed := by
  obtain ⟨htouches, hlocks, hring, hracy, _, _⟩ := h.ring.popStep pick
  have hnone : pushedItems (RtpStreamer.popStep .main m pos.pop pick).2.2.toList = [] := by
    rcases popStep_cases .main m pos.pop pick with ⟨m', pop', hresult⟩ | ⟨m', out, hresult⟩
    · rw [hresult]
      rfl
    · rw [hresult]
      rfl
  rw [hnone, List.append_nil] at hring
  refine h.frame htouches (fun _ => OfCounters.not_ofRing) hring hracy
    (h.mutex.frame htouches (fun _ => OfBuffer.not_ofRing) hlocks) (fun _ => ?_) fun hle => ?_
  · exact hring.length.symm.trans h.ring.length
  · exact absurd hprogress (Nat.not_lt.mpr hle)

/-! ### The counters -/

/-- The main thread waits for the receive thread before it reads `malformed_dropped`. -/
theorem Synced.countMalformed (h : Synced m pos pushed) (hexited : pos.receiveExited = false) (count : ℕ) :
    Synced ((m.readCell .receive (.other .malformedDropped)).1.writeCell .receive
      (.other .malformedDropped) count) pos pushed := by
  have hprogress : pos.progress < 3 := by
    by_contra hge
    have hjoined := h.joined (Nat.le_of_not_lt hge)
    rw [hexited] at hjoined
    exact Bool.false_ne_true hjoined
  have howner : malformedOwner pos.progress = .receive := if_pos hprogress
  have hknows := h.malformed (by omega)
  rw [howner] at hknows
  obtain ⟨hread, hracy⟩ := hknows.readCell
  obtain ⟨hwrite, hracy'⟩ := hread.writeCell count
  have hcoherent := h.ring.coherent
  have htouches : Touches m ((m.readCell .receive (.other .malformedDropped)).1.writeCell .receive
      (.other .malformedDropped) count) OfMalformed := by
    have htouches := (hcoherent.touches_readCell .receive (.other .malformedDropped)).mono
      fun _ => OfMalformed.of_eq trivial
    exact htouches.trans ((htouches.coherent.touches_writeCell .receive (.other .malformedDropped) count).mono
      fun _ => OfMalformed.of_eq trivial)
  refine h.touched htouches ((h.ring.readOther .receive .malformedDropped).writeOther .receive
    .malformedDropped count) (hracy'.trans hracy) (h.mutex.frame htouches ?_ ⟨rfl, rfl⟩) ?_
    (h.done.frame htouches id fun _ => htouches.latest (.stored .head) id)
    (h.underruns.frame htouches id) (fun _ => htouches.latest (.stored .head) id)
    fun _ => htouches.latest (.stored .tail) id
  · exact fun _ => OfBuffer.not_ofMalformed
  · intro _
    rw [howner]
    exact hwrite

/-- The playout thread counts an underrun. -/
theorem Synced.countUnderrun (h : Synced m pos pushed) (hexited : pos.playoutExited = false) :
    Synced (m.modifyRelaxed .playout (.other .underruns) fun count => (count : ℕ) + 1) pos pushed := by
  have hprogress : pos.progress = 0 := h.progress_of_playing hexited
  have howner : underrunsOwner pos.progress = .playout := if_pos (by omega)
  have htouches := h.ring.coherent.touches_modifyRelaxed .playout (.other .underruns)
    fun count => (count : ℕ) + 1
  refine h.touched htouches (h.ring.modifyOther .playout .underruns _) rfl
    (h.mutex.frame htouches ?_ ⟨rfl, rfl⟩) ?_ (h.done.frame htouches (by simp) fun _ => ?_) ?_ (fun _ => ?_)
    fun _ => ?_
  · rintro place hbuffer rfl
    exact hbuffer
  · exact fun hlt => (h.malformed hlt).frame htouches (by simp) (by simp)
  · exact htouches.latest (.stored .head) (by simp)
  · have hcounted := h.underruns
    rw [howner] at hcounted ⊢
    exact hcounted.count
  · exact htouches.latest (.stored .head) (by simp)
  · exact htouches.latest (.stored .tail) (by simp)

/-- The playout thread stores `playout_done`. -/
theorem Synced.storeDone (h : Synced m pos pushed) (hexited : pos.playoutExited = false) :
    Synced (m.storeRelease .playout (.other .playoutDone) true) { pos with playoutExited := true } pushed := by
  have hprogress : pos.progress = 0 := h.progress_of_playing hexited
  have hdone := h.done
  rw [hexited] at hdone
  have htouches := h.ring.coherent.touches_storeRelease .playout (.other .playoutDone) true
  exact {
    ring := h.ring.storeOther .playout .playoutDone true
    racy := h.racy
    mutex := h.mutex.frame htouches (fun place hbuffer heq => by rw [heq] at hbuffer; exact hbuffer) ⟨rfl, rfl⟩
    malformed := fun hlt => (h.malformed hlt).frame htouches (by simp) (by simp)
    done := hdone.store h.ring.ownHead
    underruns := h.underruns.frame htouches (by simp)
    ended := fun hle => absurd hle (by show ¬ 1 ≤ pos.progress; omega)
    drained := fun hle => absurd hle (by show ¬ 2 ≤ pos.progress; omega)
    joined := h.joined }

/-! ### The end of the main thread -/

/-- The main thread has loaded that `playout_done` is set. -/
theorem Synced.findDone (h : Synced m pos pushed) (hprogress : pos.progress = 0) (pick : ℕ)
    (htrue : (m.loadAcquire .main (.other .playoutDone) pick).2 = true) :
    Synced (m.loadAcquire .main (.other .playoutDone) pick).1 { pos with progress := 1 } pushed := by
  have hload := h.loadAcquire .main (.other .playoutDone) pick
  have hmalformed := hload.malformed (by omega)
  have hunderruns := hload.underruns
  rw [hprogress] at hmalformed hunderruns
  exact {
    hload with
    malformed := fun _ => hmalformed
    underruns := hunderruns
    ended := fun _ => h.done.load h.ring.coherent .main pick htrue
    drained := fun hle => absurd hle (show ¬ 2 ≤ 1 by decide)
    joined := fun hle => absurd hle (show ¬ 3 ≤ 1 by decide) }

/-- The main thread goes back into its loop. -/
theorem Synced.again (h : Synced m pos pushed) (hprogress : pos.progress < 2) :
    Synced m { pos with progress := 0 } pushed := by
  have hmalformed := h.malformed (by omega)
  have hunderruns := h.underruns
  rw [malformedOwner, if_pos (by omega)] at hmalformed
  rw [underrunsOwner, if_pos (by omega)] at hunderruns
  exact {
    h with
    malformed := fun _ => hmalformed
    underruns := hunderruns
    ended := fun hle => absurd hle (show ¬ 1 ≤ 0 by decide)
    drained := fun hle => absurd hle (show ¬ 2 ≤ 0 by decide)
    joined := fun hle => absurd hle (show ¬ 3 ≤ 0 by decide) }

/-- The last pop of the main thread has found nothing. -/
theorem Synced.leave (h : Synced m pos pushed) (hprogress : pos.progress = 1)
    (hempty : m.latest (.stored .tail) = m.views .main (.stored .head)) :
    Synced m { pos with progress := 2 } pushed := by
  obtain ⟨hexited, hknown⟩ := h.ended hprogress.ge
  have hmalformed := h.malformed (by omega)
  have hunderruns := h.underruns
  rw [hprogress] at hmalformed hunderruns
  exact {
    h with
    malformed := fun _ => hmalformed
    underruns := hunderruns
    ended := fun _ => ⟨hexited, hknown⟩
    drained := fun _ => hempty.trans (le_antisymm (h.ring.coherent.le.views .main _) hknown)
    joined := fun hle => absurd hle (show ¬ 3 ≤ 2 by decide) }

theorem Synced.join (h : Synced m pos pushed) (t : ReceiverThread) : Synced (m.join .main t) pos pushed := by
  have htouches := h.ring.coherent.touches_join .main t
  exact h.frame htouches (fun _ _ => id)
    (h.ring.synchronize htouches (EveryView.join (S := RingView .main) h.ring.views (joins_ringView _) .main t))
    rfl (h.mutex.frame htouches (fun _ _ => id) ⟨rfl, rfl⟩) (fun _ => rfl) fun _ => rfl

theorem views_join (m : ReceiverMemory P capacity) {t : ReceiverThread} (ht : t ≠ .main) :
    (m.join .main t).views t = m.views t ∧ m.views t ≤ (m.join .main t).views .main := by
  refine ⟨Function.update_of_ne ht .., ?_⟩
  show _ ≤ Function.update m.views .main _ .main
  rw [Function.update_self]
  exact le_sup_right

/-- The main thread joins the receive thread, and owns `malformed_dropped`. -/
theorem Synced.joinReceive (h : Synced m pos pushed) (hprogress : pos.progress = 2)
    (hexited : pos.receiveExited = true) :
    Synced (m.join .main .receive) { pos with progress := 3 } pushed := by
  have hjoin := h.join .receive
  have hunderruns := hjoin.underruns
  have hended := hjoin.ended (by omega)
  have hdrained := hjoin.drained hprogress.ge
  have hmalformed : Knows m.latest (.other .malformedDropped) (m.views .receive) := by
    have hknows := h.malformed (by omega)
    rwa [hprogress] at hknows
  rw [hprogress] at hunderruns
  exact {
    hjoin with
    malformed := fun _ => hmalformed.mono (views_join m (by simp)).2 (hjoin.ring.coherent.le.views .main)
    underruns := hunderruns
    ended := fun _ => hended
    drained := fun _ => hdrained
    joined := fun _ => hexited }

/-- The main thread joins the playout thread, and owns `underruns`. -/
theorem Synced.joinPlayout (h : Synced m pos pushed) (hprogress : pos.progress = 3) :
    Synced (m.join .main .playout) { pos with progress := 4 } pushed := by
  have hjoin := h.join .playout
  have hmalformed := hjoin.malformed (by omega)
  have hunderruns := hjoin.underruns
  have hended := hjoin.ended (by omega)
  have hdrained := hjoin.drained (by omega)
  have hjoined := hjoin.joined hprogress.ge
  rw [hprogress] at hmalformed hunderruns
  obtain ⟨hsame, hle⟩ := views_join m (t := .playout) (by simp)
  refine {
    hjoin with
    malformed := fun _ => hmalformed
    underruns := ⟨hunderruns.value, le_antisymm (hjoin.ring.coherent.le.views .main _) ?_⟩
    ended := fun _ => hended
    drained := fun _ => hdrained
    joined := fun _ => hjoined }
  rw [← hunderruns.known]
  show (m.join .main .playout).views .playout _ ≤ _
  rw [hsame]
  exact hle _

/-- The main thread reads `malformed_dropped` without a race, and ends. -/
theorem Synced.readMalformed (h : Synced m pos pushed) (hprogress : pos.progress = 4) :
    Synced (m.readCell .main (.other .malformedDropped)).1 pos pushed := by
  have howner : malformedOwner pos.progress = .main := if_neg (by omega)
  have hknows := h.malformed (by omega)
  rw [howner] at hknows
  obtain ⟨hread, hracy⟩ := hknows.readCell
  have htouches := (h.ring.coherent.touches_readCell .main (.other .malformedDropped)).mono
    fun _ => OfMalformed.of_eq trivial
  refine h.touched htouches (h.ring.readOther .main .malformedDropped) hracy
    (h.mutex.frame htouches (fun _ => OfBuffer.not_ofMalformed) ⟨rfl, rfl⟩) (fun _ => ?_)
    (h.done.frame htouches id fun _ => htouches.latest (.stored .head) id)
    (h.underruns.frame htouches id) (fun _ => htouches.latest (.stored .head) id)
    fun _ => htouches.latest (.stored .tail) id
  rw [howner]
  exact hread

theorem Synced.exit (h : Synced m pos pushed) (hprogress : pos.progress = 4) :
    Synced m { pos with progress := 5 } pushed := by
  have hunderruns := h.underruns
  have hended := h.ended (by omega)
  have hdrained := h.drained (by omega)
  have hjoined := h.joined (by omega)
  rw [hprogress] at hunderruns
  exact {
    h with
    malformed := fun hlt => absurd hlt (show ¬ 5 < 5 by decide)
    underruns := hunderruns
    ended := fun _ => hended
    drained := fun _ => hdrained
    joined := fun _ => hjoined }

end Synced

/-! ## Whole runs -/

namespace WeakProcess

variable {config : ReceiverConfig} {process : WeakProcess P capacity} {pushed : List Frame}

/-- The accesses so far are in order, when these frames have been pushed. -/
structure InSync (process : WeakProcess P capacity) (pushed : List Frame) : Prop where
  synced : Synced process.memory process.position pushed
  offered : ∀ item, process.playout.push.item = some item → process.playout.offered = some item

/-- The receive thread pushes no frame. -/
theorem receiveStep_accepted (config : ReceiverConfig) (process : WeakProcess P capacity) (read : SocketRead)
    (pick : ℕ) : framesAccepted (process.receiveStep config read pick).2.toList = [] := by
  unfold WeakProcess.receiveStep
  cases process.receive with
  | receiving =>
    unfold WeakProcess.handleRead
    dsimp only
    split
    · split <;> rfl
    · split_ifs <;> rfl
  | countingMalformed => rfl
  | locking reception => rfl
  | calling reception => rfl
  | unlocking => rfl
  | loadingDone => rfl
  | exited => rfl

theorem InSync.receiveStep (h : process.InSync pushed) (read : SocketRead) (pick : ℕ) :
    (process.receiveStep config read pick).1.InSync pushed := by
  obtain ⟨m, lastActivity, deadline, receive, playout, main, samples, file, report⟩ := process
  obtain ⟨h, hoffered⟩ := h
  unfold WeakProcess.receiveStep
  cases receive with
  | receiving =>
    unfold WeakProcess.handleRead
    dsimp only
    split
    · split
      · exact ⟨h, hoffered⟩
      · exact ⟨h, hoffered⟩
    · split_ifs
      · exact ⟨h, hoffered⟩
      · exact ⟨h, hoffered⟩
  | countingMalformed => exact ⟨h.countMalformed rfl _, hoffered⟩
  | locking reception =>
    dsimp only
    rcases lockBuffer_cases .receive m (WeakReceivePc.locking reception) (.calling reception) with
      hwaits | ⟨hfree, htakes⟩
    · rw [hwaits]
      exact ⟨h, hoffered⟩
    · rw [htakes]
      refine ⟨h.lock hfree rfl fun u hu => ?_, hoffered⟩
      cases u with
      | receive => exact absurd rfl hu
      | playout => rfl
      | main => rfl
  | calling reception => exact ⟨h.callBuffer (t := .receive) rfl _, hoffered⟩
  | unlocking =>
    refine ⟨h.unlock (t := .receive) rfl rfl fun u hu => ?_, hoffered⟩
    cases u with
    | receive => exact absurd rfl hu
    | playout => rfl
    | main => rfl
  | loadingDone =>
    dsimp only
    have hload := h.loadAcquire .receive (.other .playoutDone) pick
    split_ifs
    · exact ⟨{ hload with joined := fun _ => rfl }, hoffered⟩
    · exact ⟨hload, hoffered⟩
  | exited => exact ⟨h, hoffered⟩

/-- An access of `ring.push`. -/
theorem InSync.pushing (h : process.InSync pushed) {nowSamples : U32} {frame : Frame}
    {push : PushPc Frame capacity} (hpc : process.playout = .pushing nowSamples frame push) (pick : ℕ) :
    (process.playoutStep config pick).1.InSync
      (pushed ++ framesAccepted (process.playoutStep config pick).2.toList) := by
  obtain ⟨m, lastActivity, deadline, receive, playout, main, samples, file, report⟩ := process
  obtain ⟨h, hoffered⟩ := h
  obtain rfl : playout = .pushing nowSamples frame push := hpc
  have hitem (item : Frame) (heq : push.item = some item) : item = frame :=
    (Option.some.inj (hoffered item heq)).symm
  have hpush : let result := RtpStreamer.pushStep .playout m push frame pick
      Synced result.1 { WeakProcess.position _ with push := result.2.1 }
        (pushed ++ pushedItems result.2.2.toList) := h.pushStep rfl frame pick
  unfold WeakProcess.playoutStep
  dsimp only
  rcases pushStep_cases .playout m pick hitem with ⟨m', push', hresult, hunderway⟩ | ⟨m', accepted, hresult⟩
  · rw [hresult] at hpush ⊢
    refine ⟨hpush, fun item heq => ?_⟩
    exact hunderway.symm.trans heq
  · rw [hresult] at hpush ⊢
    cases accepted with
    | false => exact ⟨hpush, fun item heq => absurd heq (by simp [WeakPlayoutPc.push, PushPc.item])⟩
    | true => exact ⟨hpush, fun item heq => absurd heq (by simp [WeakPlayoutPc.push, PushPc.item])⟩

theorem InSync.playoutStep (h : process.InSync pushed) (pick : ℕ) :
    (process.playoutStep config pick).1.InSync
      (pushed ++ framesAccepted (process.playoutStep config pick).2.toList) := by
  have hpushing {nowSamples : U32} {frame : Frame} {push : PushPc Frame capacity}
      (hpc : process.playout = .pushing nowSamples frame push) :
      (process.playoutStep config pick).1.InSync
        (pushed ++ framesAccepted (process.playoutStep config pick).2.toList) := h.pushing hpc pick
  obtain ⟨m, lastActivity, deadline, receive, playout, main, samples, file, report⟩ := process
  obtain ⟨h, _⟩ := h
  -- what is left of the steps that push nothing
  have hquiet {process' : WeakProcess P capacity} (h : Synced process'.memory process'.position pushed)
      (hidle : process'.playout.push = .idle) : process'.InSync (pushed ++ []) := by
    rw [List.append_nil]
    refine ⟨h, fun item heq => ?_⟩
    rw [hidle] at heq
    exact absurd heq (by simp [PushPc.item])
  cases playout with
  | waiting => exact hquiet h rfl
  | locking nowSamples =>
    unfold WeakProcess.playoutStep
    dsimp only
    rcases lockBuffer_cases .playout m (.locking nowSamples : WeakPlayoutPc capacity) (.pulling nowSamples) with
      hwaits | ⟨hfree, htakes⟩
    · rw [hwaits]
      exact hquiet h rfl
    · rw [htakes]
      refine hquiet (h.lock hfree rfl fun u hu => ?_) rfl
      cases u with
      | receive => rfl
      | playout => exact absurd rfl hu
      | main => rfl
  | pulling nowSamples =>
    have hcall := h.callBuffer (t := .playout) rfl (.pull nowSamples)
    unfold WeakProcess.playoutStep
    dsimp only
    cases (callBuffer .playout m (.pull nowSamples)).2 with
    | none => exact hquiet hcall rfl
    | some frame => exact hquiet hcall rfl
  | pushing nowSamples frame push => exact hpushing rfl
  | countingUnderrun nowSamples => exact hquiet (h.countUnderrun rfl) rfl
  | checking nowSamples =>
    have hread := h.readBuffer (t := .playout) rfl
    unfold WeakProcess.playoutStep
    dsimp only
    split_ifs
    · exact hquiet hread rfl
    · exact hquiet hread rfl
  | leaving => exact hquiet (h.readBuffer (t := .playout) rfl) rfl
  | unlocking done =>
    have hothers (u : ReceiverThread) (hu : u ≠ .playout) :
        (WeakProcess.position ⟨m, lastActivity, deadline, receive, .waiting, main, samples, file,
          report⟩).holds u = (WeakProcess.position ⟨m, lastActivity, deadline, receive, .unlocking done, main,
            samples, file, report⟩).holds u := by
      cases u with
      | receive => rfl
      | playout => exact absurd rfl hu
      | main => rfl
    cases done with
    | false => exact hquiet (h.unlock (t := .playout) rfl rfl hothers) rfl
    | true => exact hquiet (h.unlock (t := .playout) rfl rfl hothers) rfl
  | storingDone => exact hquiet (h.storeDone rfl) rfl
  | exited => exact hquiet h rfl

/-- An access of `ring.pop` in the loop of the main thread. -/
theorem InSync.popping (h : process.InSync pushed) {pop : PopPc Frame capacity}
    (hpc : process.main = .popping pop) (pick : ℕ) :
    (process.popStep pop pick .popping .loadingDone).InSync pushed := by
  obtain ⟨m, lastActivity, deadline, receive, playout, main, samples, file, report⟩ := process
  obtain ⟨h, hoffered⟩ := h
  obtain rfl : main = .popping pop := hpc
  have hpop : let result := RtpStreamer.popStep .main m pop pick
      Synced result.1 { WeakProcess.position _ with pop := result.2.1 } pushed := h.popStep Nat.two_pos pick
  unfold WeakProcess.popStep
  dsimp only
  rcases popStep_cases .main m pop pick with ⟨m', pop', hresult⟩ | ⟨m', out, hresult⟩
  · rw [hresult] at hpop ⊢
    exact ⟨hpop, hoffered⟩
  · rw [hresult] at hpop ⊢
    cases out with
    | none => exact ⟨hpop, hoffered⟩
    | some frame => exact ⟨hpop, hoffered⟩

/-- An access of the last `ring.pop` behind `playout_done`. -/
theorem InSync.lastPopping (h : process.InSync pushed) {pop : PopPc Frame capacity}
    (hpc : process.main = .lastPop pop) (pick : ℕ) :
    (process.popStep pop pick .lastPop .joiningReceive).InSync pushed := by
  obtain ⟨m, lastActivity, deadline, receive, playout, main, samples, file, report⟩ := process
  obtain ⟨h, hoffered⟩ := h
  obtain rfl : main = .lastPop pop := hpc
  have hpop : let result := RtpStreamer.popStep .main m pop pick
      Synced result.1 { WeakProcess.position _ with pop := result.2.1 } pushed := h.popStep Nat.one_lt_two pick
  have hhonest : let result := RtpStreamer.popStep .main m pop pick
      Honest .playout .main result.1 result.2.2 := (h.ring.popStep pick).honest
  unfold WeakProcess.popStep
  dsimp only
  rcases popStep_cases .main m pop pick with ⟨m', pop', hresult⟩ | ⟨m', out, hresult⟩
  · rw [hresult] at hpop ⊢
    exact ⟨hpop, hoffered⟩
  · rw [hresult] at hpop hhonest ⊢
    cases out with
    | none => exact ⟨Synced.leave hpop rfl hhonest, hoffered⟩
    | some frame => exact ⟨Synced.again hpop Nat.one_lt_two, hoffered⟩

theorem InSync.mainStep (h : process.InSync pushed) (pick : ℕ) :
    (process.mainStep config pick).InSync pushed := by
  have hpopping {pop : PopPc Frame capacity} (hpc : process.main = .popping pop) :
      (process.popStep pop pick .popping .loadingDone).InSync pushed := h.popping hpc pick
  have hlastPopping {pop : PopPc Frame capacity} (hpc : process.main = .lastPop pop) :
      (process.popStep pop pick .lastPop .joiningReceive).InSync pushed := h.lastPopping hpc pick
  obtain ⟨m, lastActivity, deadline, receive, playout, main, samples, file, report⟩ := process
  obtain ⟨h, hoffered⟩ := h
  unfold WeakProcess.mainStep
  cases main with
  | popping pop => exact hpopping rfl
  | loadingDone =>
    dsimp only
    split_ifs with hdone
    · exact ⟨h.findDone rfl pick hdone, hoffered⟩
    · exact ⟨h.loadAcquire .main _ pick, hoffered⟩
  | lastPop pop => exact hlastPopping rfl
  | joiningReceive =>
    cases receive with
    | exited => exact ⟨h.joinReceive rfl rfl, hoffered⟩
    | receiving | countingMalformed | locking | calling | unlocking | loadingDone => exact ⟨h, hoffered⟩
  | joiningPlayout =>
    cases playout with
    | exited => exact ⟨h.joinPlayout rfl, hoffered⟩
    | waiting | locking | pulling | pushing | countingUnderrun | checking | leaving | unlocking
    | storingDone => exact ⟨h, hoffered⟩
  | writing =>
    dsimp only
    split
    · exact ⟨h, hoffered⟩
    · exact ⟨h.exit rfl, hoffered⟩
  | locking =>
    dsimp only
    rcases lockBuffer_cases .main m (.locking : WeakMainPc P capacity) .copying with hwaits | ⟨hfree, htakes⟩
    · rw [hwaits]
      exact ⟨h, hoffered⟩
    · rw [htakes]
      refine ⟨h.lock hfree rfl fun u hu => ?_, hoffered⟩
      cases u with
      | receive => rfl
      | playout => rfl
      | main => exact absurd rfl hu
  | copying => exact ⟨h.readBuffer (t := .main) rfl, hoffered⟩
  | unlocking jbuf =>
    refine ⟨h.unlock (t := .main) rfl rfl fun u hu => ?_, hoffered⟩
    cases u with
    | receive => rfl
    | playout => rfl
    | main => exact absurd rfl hu
  | printing jbuf =>
    exact ⟨((h.readMalformed rfl).loadAcquire .main (.other .underruns) pick).exit rfl, hoffered⟩
  | exited => exact ⟨h, hoffered⟩

theorem InSync.step (h : process.InSync pushed) (move : ProcessMove × ℕ) :
    (process.step config move).1.InSync (pushed ++ framesAccepted (process.step config move).2.toList) := by
  obtain ⟨move, pick⟩ := move
  cases move with
  | receive read =>
    have hnone : framesAccepted (process.receiveStep config read pick).2.toList = [] :=
      receiveStep_accepted config process read pick
    show InSync _ (pushed ++ framesAccepted (process.receiveStep config read pick).2.toList)
    rw [hnone, List.append_nil]
    exact h.receiveStep read pick
  | playout => exact h.playoutStep pick
  | main =>
    show InSync _ (pushed ++ [])
    rw [List.append_nil]
    exact h.mainStep pick

theorem inSync_run (P : Platform) (config : ReceiverConfig) (options : Options)
    (junk : Vector (Vector U8 kSlotPayloadBytes) kCapacity) (initial : Vector Frame capacity.size)
    (moves : List (ProcessMove × ℕ)) :
    InSync ((weakProcessSystem P config options junk capacity initial).run moves)
      (framesAccepted ((weakProcessSystem P config options junk capacity initial).events moves)) := by
  refine DetSystem.events_induction (M := weakProcessSystem P config options junk capacity initial)
    (P := fun events process => InSync process (framesAccepted events)) ?_ (fun events process move h => ?_) moves
  · refine ⟨{
      ring := ringInv_initial ReceiverThread.playout .main initial receiverValues (receiverCells P options junk)
      racy := rfl
      mutex := ⟨Guarded.initial _ _ _ _, fun t => iff_of_false (by simp [Memory.initial, weakProcessSystem]) ?_⟩
      malformed := fun _ => ⟨rfl, fun _ => rfl⟩
      done := ⟨rfl, fun i hi => ?_, fun i hpos hi => ?_⟩
      underruns := ⟨fun i hi => ?_, rfl⟩
      ended := fun hle => absurd hle (show ¬ 1 ≤ 0 by decide)
      drained := fun hle => absurd hle (show ¬ 2 ≤ 0 by decide)
      joined := fun hle => absurd hle (show ¬ 3 ≤ 0 by decide) }, fun item heq => ?_⟩
    · cases t <;> exact Bool.false_ne_true
    · obtain rfl := Nat.le_zero.mp hi
      rfl
    · exact absurd (hpos.trans_le hi) (Nat.lt_irrefl 0)
    · exact (Nat.le_zero.mp hi).symm
    · exact absurd heq (by simp [weakProcessSystem, WeakPlayoutPc.push, PushPc.item])
  · have hstep : framesAccepted (events ++ (process.step config move).2.toList) =
        framesAccepted events ++ framesAccepted (process.step config move).2.toList := List.filterMap_append
    show InSync _ (framesAccepted (events ++ (process.step config move).2.toList))
    rw [hstep]
    exact InSync.step h move

end WeakProcess

end RtpStreamer
