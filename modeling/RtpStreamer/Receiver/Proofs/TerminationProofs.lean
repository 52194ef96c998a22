import RtpStreamer.Receiver.Proofs.ReportProofs
import RtpStreamer.Run.Fairness

/-!
# The process comes to its end

Once the jitter buffer knows that the stream has ended, the process exits under every schedule that lets
each thread move again and again: the playout thread plays what lies before the frontier and leaves, then
the receive thread sees `playout_done`, then the main thread drains the ring, joins and reports. At each of
these stages the other threads can do what they like.
-/

namespace RtpStreamer

inductive ThreadName where
  | receive
  | playout
  | main
  deriving DecidableEq

def ProcessMove.thread : ProcessMove → ThreadName
  | .receive _ => .receive
  | .playout => .playout
  | .main => .main

/-! ## The ranks of the threads -/

/-- Accesses that a push still makes before its last one. -/
def PushPc.rank {T : Type} {capacity : Capacity} : PushPc T capacity → Nat
  | .idle => 3
  | .loadTail _ _ => 2
  | .writeSlot _ _ _ => 1
  | .storeHead _ _ => 0

def ReceivePc.rank : ReceivePc → Nat
  | .receiving => 3
  | .locking _ => 2
  | .loadingDone => 1
  | .exited => 0

def EndingPc.rank : EndingPc → Nat
  | .joiningReceive => 4
  | .joiningPlayout => 3
  | .writing => 2
  | .reporting => 1
  | .exited => 0

/-- Steps of the main thread in its loop when `queued` frames are in the ring and nobody pushes. A pop that
finds a frame goes back to the first pop. -/
def MainPc.rank {T : Type} {capacity : Capacity} (queued : Nat) (pc : PopPc T capacity)
    (ending : EndingPc) : MainPc → Nat
  | .popping =>
    match pc with
    | .idle => 7 * queued + 9
    | .loadHead _ => 7 * queued + 8
    | .readSlot _ => 7 * queued + 4
    | .storeTail _ _ => 7 * queued + 3
  | .loadingDone => 7 * queued + 7
  | .lastPop =>
    match pc with
    | .idle => 7 * queued + 6
    | .loadHead _ => 7 * queued + 5
    | .readSlot _ => 7 * queued + 4
    | .storeTail _ _ => 7 * queued + 3
  | .exited => ending.rank

def PlayoutPc.isExited : PlayoutPc → Bool
  | .exited => true
  | .waiting | .pulling _ | .pushing _ _ | .countingUnderrun _ | .checking _ | .leaving
  | .storingDone => false

def ReceivePc.isExited : ReceivePc → Bool
  | .exited => true
  | .receiving | .locking _ | .loadingDone => false

theorem PlayoutPc.isExited_iff {pc : PlayoutPc} : pc.isExited = true ↔ pc = .exited := by
  cases pc <;> simp [PlayoutPc.isExited]

theorem ReceivePc.isExited_iff {pc : ReceivePc} : pc.isExited = true ↔ pc = .exited := by
  cases pc <;> simp [ReceivePc.isExited]

theorem ReceivePc.rank_le (pc : ReceivePc) : pc.rank ≤ 3 := by
  cases pc <;> simp [ReceivePc.rank]

theorem EndingPc.rank_le (pc : EndingPc) : pc.rank ≤ 4 := by
  cases pc <;> decide

theorem PushPc.rank_le {T : Type} {capacity : Capacity} (pc : PushPc T capacity) : pc.rank ≤ 3 := by
  cases pc <;> simp [PushPc.rank]

theorem MainPc.rank_le {T : Type} {capacity : Capacity} (queued : Nat) (pc : PopPc T capacity)
    (ending : EndingPc) (main : MainPc) : main.rank queued pc ending ≤ 7 * queued + 9 := by
  have hending := ending.rank_le
  cases main with
  | popping => cases pc <;> simp only [MainPc.rank] <;> omega
  | loadingDone => simp only [MainPc.rank]; omega
  | lastPop => cases pc <;> simp only [MainPc.rank] <;> omega
  | exited => simp only [MainPc.rank]; omega

namespace SpscRing

variable {T : Type} {capacity : Capacity} {ring : SpscRing T capacity}

/-- The number of items that lie between the two indices. -/
def queued (ring : SpscRing T capacity) : Nat :=
  (ring.head.val + capacity.size - ring.tail.val) % capacity.size

theorem queued_lt (ring : SpscRing T capacity) : ring.queued < capacity.size :=
  Nat.mod_lt _ (by have := capacity.two_le; omega)

theorem Linked.queued_eq {items : List T} (h : Linked ring items) : ring.queued = items.length := by
  have hsize := capacity.two_le
  have hlength := h.length_le
  have htail := ring.tail.isLt
  unfold queued
  rw [h.head, capacity.masked_val]
  rcases Nat.lt_or_ge (ring.tail.val + items.length) capacity.size with hlt | hge
  · have hsum : ring.tail.val + items.length + capacity.size - ring.tail.val =
        items.length + capacity.size := by omega
    rw [Nat.mod_eq_of_lt hlt, hsum, Nat.add_mod_right, Nat.mod_eq_of_lt (by omega)]
  · -- the head has wrapped around, the tail has not
    have hwrap : (ring.tail.val + items.length) % capacity.size =
        ring.tail.val + items.length - capacity.size := by
      rw [Nat.mod_eq_sub_mod hge, Nat.mod_eq_of_lt (by omega)]
    have hsum : ring.tail.val + items.length - capacity.size + capacity.size - ring.tail.val =
        items.length := by omega
    rw [hwrap, hsum, Nat.mod_eq_of_lt (by omega)]

/-- An access inside a push brings it nearer to its last access. -/
theorem producerStep_rank {offered : T} (h : (ring.producerStep offered).2 = none) :
    (ring.producerStep offered).1.producer.rank < ring.producer.rank := by
  unfold producerStep at h ⊢
  cases hpc : ring.producer with
  | idle => simp [PushPc.rank]
  | loadTail item head =>
    rw [hpc] at h
    dsimp only at h ⊢
    split_ifs at h ⊢ with hfull
    simp [PushPc.rank]
  | writeSlot item head next => simp [PushPc.rank]
  | storeHead item next =>
    rw [hpc] at h
    exact absurd h (by simp)

end SpscRing

theorem Receiver.step_playoutDone {source : FrameSource} {bound : Nat} {receiver : Receiver source bound}
    (h : receiver.playout = .exited → receiver.playoutDone = true) (move : Move source) :
    (receiver.step move).1.playout = .exited → (receiver.step move).1.playoutDone = true := by
  cases move with
  | receive reception =>
    show (receiver.receiveStep reception).playout = .exited →
      (receiver.receiveStep reception).playoutDone = true
    unfold Receiver.receiveStep
    split_ifs <;> exact h
  | playout now =>
    show (receiver.playoutStep now).1.playout = .exited → (receiver.playoutStep now).1.playoutDone = true
    unfold Receiver.playoutStep
    cases hpc : receiver.playout with
    | storingDone => exact fun _ => rfl
    | exited => exact h
    | waiting => exact fun h => PlayoutPc.noConfusion h
    | pulling now =>
      dsimp only
      split <;> exact fun h => PlayoutPc.noConfusion h
    | pushing now frame =>
      dsimp only
      split_ifs <;> exact fun h => h.elim
    | countingUnderrun now => exact fun h => PlayoutPc.noConfusion h
    | checking now =>
      dsimp only
      split_ifs <;> exact fun h => h.elim
    | leaving =>
      dsimp only
      split_ifs <;> exact fun h => h.elim
  | main =>
    show receiver.mainStep.playout = .exited → receiver.mainStep.playoutDone = true
    unfold Receiver.mainStep
    cases receiver.main with
    | popping =>
      dsimp only
      split <;> exact h
    | loadingDone => exact h
    | lastPop =>
      dsimp only
      split <;> exact h
    | exited => exact h

/-- `playout_done` is stored before the playout thread returns. -/
theorem Receiver.playoutDone_run (source : FrameSource) (bound : Nat) (moves : List (Move source)) :
    Receiver.playout ((receiverSystem source bound).run moves) = .exited →
      Receiver.playoutDone ((receiverSystem source bound).run moves) = true :=
  DetSystem.invariant (M := receiverSystem source bound)
    (P := fun receiver => Receiver.playout receiver = .exited → Receiver.playoutDone receiver = true)
    (fun h => PlayoutPc.noConfusion h) (fun _ move h => Receiver.step_playoutDone h move) moves

namespace ReceiverProcess

variable {P : Platform} {options : Options}
  {junk : Vector (Vector U8 kSlotPayloadBytes) kCapacity} {capacity : Capacity}
  {config : ReceiverConfig} {initial : Vector Frame capacity.size}

def mainRank (process : ReceiverProcess P capacity) : Nat :=
  process.main.rank process.ring.queued process.ring.consumer process.ending

/-- Moves of the helpful threads that are left, at most. -/
def rank (process : ReceiverProcess P capacity) : Nat :=
  if process.playout.isExited then
    if process.receive.isExited then process.mainRank
    else process.receive.rank + (7 * capacity.size + 9)
  else
    4 * process.playout.rank process.jbuf.framesLeft + process.ring.producer.rank +
      (7 * capacity.size + 12)

/-- The thread for which the others wait. -/
def helpful (process : ReceiverProcess P capacity) : ThreadName :=
  if process.playout.isExited then
    if process.receive.isExited then .main else .receive
  else .playout

theorem mainRank_le (process : ReceiverProcess P capacity) :
    process.mainRank ≤ 7 * capacity.size + 2 := by
  have hrank := MainPc.rank_le process.ring.queued process.ring.consumer process.ending process.main
  have hqueued := process.ring.queued_lt
  unfold mainRank
  omega

/-! The three stages. -/

theorem rank_playing {process : ReceiverProcess P capacity} (h : process.playout.isExited = false) :
    process.rank = 4 * process.playout.rank process.jbuf.framesLeft + process.ring.producer.rank +
      (7 * capacity.size + 12) := by
  unfold rank
  rw [h, if_neg (by decide)]

theorem rank_receiving {process : ReceiverProcess P capacity} (h : process.playout.isExited = true)
    (hreceive : process.receive.isExited = false) :
    process.rank = process.receive.rank + (7 * capacity.size + 9) := by
  unfold rank
  rw [h, hreceive, if_pos rfl, if_neg (by decide)]

theorem rank_draining {process : ReceiverProcess P capacity} (h : process.playout.isExited = true)
    (hreceive : process.receive.isExited = true) : process.rank = process.mainRank := by
  unfold rank
  rw [h, hreceive, if_pos rfl, if_pos rfl]

/-- Behind the exit of the playout thread only the last two stages are left. -/
theorem rank_of_exited {process : ReceiverProcess P capacity} (h : process.playout.isExited = true) :
    process.rank ≤ 7 * capacity.size + 12 := by
  have hmain := process.mainRank_le
  have hrank := process.receive.rank_le
  cases hreceive : process.receive.isExited with
  | true =>
    rw [rank_draining h hreceive]
    omega
  | false =>
    rw [rank_receiving h hreceive]
    omega

/-- What the proof uses of a reachable state whose stream has ended. -/
structure Draining (process : ReceiverProcess P capacity) : Prop where
  inv : process.jbuf.Inv
  ended : process.jbuf.streamEnded = true
  finished : process.playout = .leaving → process.jbuf.finished = true
  offered : ∀ item, process.ring.producer.item = some item → process.playout.offered = some item
  linked : ∃ items, SpscRing.Linked process.ring items
  done : process.playout = .exited → process.playoutDone = true

section Step

variable {process : ReceiverProcess P capacity}

/-! ## Steps of the playout thread -/

/-- The playout thread makes an access inside a push, or one of the moves of the threads. -/
theorem playoutStep_moves (config : ReceiverConfig)
    (hoffered : ∀ item, process.ring.producer.item = some item → process.playout.offered = some item) :
    ((process.playoutStep config).1.jbuf = process.jbuf ∧
      (process.playoutStep config).1.playout = process.playout ∧
      (process.playoutStep config).1.ring.producer.rank < process.ring.producer.rank) ∨
    Receiver.PlayoutMoves process.jbuf process.playout (process.playoutStep config).1.jbuf
      (process.playoutStep config).1.playout := by
  cases hpc : process.playout with
  | pushing now frame =>
    have hproducer : ∀ item, process.ring.producer.item = some item → item = frame := by
      intro item hitem
      have hframe := hoffered item hitem
      rw [hpc] at hframe
      exact (Option.some.inj hframe).symm
    have hcases := SpscRing.producerStep_cases hproducer
    have hrank : (process.ring.producerStep frame).2 = none → _ := SpscRing.producerStep_rank
    rcases hring : process.ring.producerStep frame with ⟨ring, answer⟩
    rw [hring] at hcases hrank
    rcases hcases with ⟨hnone, _⟩ | ⟨accepted, hsome, _⟩
    · obtain rfl : answer = none := hnone
      rw [playoutStep_access hpc hring]
      exact Or.inl ⟨rfl, hpc, hrank rfl⟩
    · obtain rfl : answer = some (.push frame, .pushed accepted) := hsome
      rw [playoutStep_pushed hpc hring]
      cases accepted with
      | true => exact Or.inr (.accepted _ now frame)
      | false => exact Or.inr (.refused _ now frame)
  | pulling now =>
    rw [playoutStep_pulling hpc]
    have hmoves := Receiver.PlayoutMoves.pulled process.jbuf now
    have hcases := process.jbuf.tryPullDueFrame_cases now
    dsimp only
    generalize process.jbuf.tryPullDueFrame now = result at hcases hmoves ⊢
    rcases hcases with ⟨hdue, rfl⟩ | ⟨hdue, _, rfl⟩ | ⟨hdue, _, rfl⟩
    · exact Or.inr (.nothingDue _ now hdue)
    · exact Or.inr (hmoves _ hdue)
    · exact Or.inr (hmoves _ hdue)
  | waiting =>
    unfold ReceiverProcess.playoutStep
    rw [hpc]
    exact Or.inr (.wake _ _)
  | countingUnderrun now =>
    unfold ReceiverProcess.playoutStep
    rw [hpc]
    exact Or.inr (.counted _ now)
  | checking now =>
    unfold ReceiverProcess.playoutStep
    rw [hpc]
    cases hfinished : process.jbuf.finished with
    | true => exact Or.inr (.enough _ now hfinished)
    | false => exact Or.inr (.again _ now hfinished)
  | leaving =>
    unfold ReceiverProcess.playoutStep
    rw [hpc]
    cases hfinished : process.jbuf.finished with
    | true => exact Or.inr (.finish _ hfinished)
    | false => exact Or.inr (.rest _ hfinished)
  | storingDone =>
    unfold ReceiverProcess.playoutStep
    rw [hpc]
    exact Or.inr (.exit _)
  | exited =>
    rw [playoutStep_exited hpc, hpc]
    exact Or.inr (.stopped _)

theorem playoutStep_rank (h : Draining process) (hplayout : process.playout.isExited = false) :
    (process.playoutStep config).1.rank < process.rank := by
  have hpos : 0 < process.playout.rank process.jbuf.framesLeft := by
    cases hpc : process.playout with
    | exited => rw [hpc] at hplayout; exact absurd hplayout (by decide)
    | _ => simp [PlayoutPc.rank]
  have hproducer := PushPc.rank_le (process.playoutStep config).1.ring.producer
  rw [rank_playing hplayout]
  rcases playoutStep_moves config h.offered with ⟨hjbuf, hpc, hrank⟩ | hmoves
  · rw [rank_playing (by rw [hpc, hplayout]), hpc, hjbuf]
    omega
  · rcases hmoves.rank_lt h.inv with hexited | ⟨hleaving, _, hunfinished⟩ | hrank
    · have := rank_of_exited (PlayoutPc.isExited_iff.mpr hexited)
      omega
    · rw [h.finished hleaving] at hunfinished
      exact absurd hunfinished (by decide)
    · cases hexited : (process.playoutStep config).1.playout.isExited with
      | true =>
        have := rank_of_exited hexited
        omega
      | false =>
        rw [rank_playing hexited]
        omega

/-! ## Steps of the receive thread -/

theorem receiveStep_held (hmutex : process.playout.holdsMutex = true) (read : SocketRead) :
    (process.receiveStep config read).1.jbuf = process.jbuf := by
  unfold ReceiverProcess.receiveStep
  cases process.receive with
  | receiving =>
    dsimp only
    unfold ReceiverProcess.handleRead
    cases read.datagram with
    | none =>
      dsimp only
      split_ifs <;> rfl
    | some datagram =>
      dsimp only
      cases parse P.byteOrder (datagram.take kMaxDatagramBytes) <;> rfl
  | locking reception =>
    dsimp only
    rw [if_pos hmutex]
  | loadingDone => rfl
  | exited => rfl

/-- While the playout thread plays, the receive thread does not change the rank. -/
theorem receiveStep_playing (hplayout : process.playout.isExited = false) (read : SocketRead) :
    (process.receiveStep config read).1.rank = process.rank := by
  have hpc := (receiveStep_keeps config process read).playout
  have hring := (receiveStep_keeps config process read).ring
  have hleft : process.playout.rank (process.receiveStep config read).1.jbuf.framesLeft =
      process.playout.rank process.jbuf.framesLeft := by
    cases hmutex : process.playout.holdsMutex with
    | true => rw [receiveStep_held hmutex]
    | false => exact PlayoutPc.rank_of_not_holdsMutex hmutex _ _
  rw [rank_playing hplayout, rank_playing (by rw [hpc, hplayout]), hpc, hring, hleft]

theorem receiveStep_rank (h : Draining process) (hplayout : process.playout.isExited = true)
    (hreceive : process.receive.isExited = false) (read : SocketRead) :
    (process.receiveStep config read).1.rank < process.rank := by
  have hpc := (receiveStep_keeps config process read).playout
  have hexited := PlayoutPc.isExited_iff.mp hplayout
  have hmain := (process.receiveStep config read).1.mainRank_le
  have hrank : (process.receiveStep config read).1.receive.rank < process.receive.rank := by
    unfold ReceiverProcess.receiveStep
    cases hthread : process.receive with
    | receiving =>
      dsimp only
      unfold ReceiverProcess.handleRead
      cases read.datagram with
      | none =>
        dsimp only
        split_ifs <;> simp [ReceivePc.rank]
      | some datagram =>
        dsimp only
        cases parse P.byteOrder (datagram.take kMaxDatagramBytes) <;> simp [ReceivePc.rank]
    | locking reception =>
      dsimp only
      rw [hexited, if_neg (by decide)]
      simp [ReceivePc.rank]
    | loadingDone =>
      dsimp only
      rw [h.done hexited]
      simp [ReceivePc.rank]
    | exited =>
      rw [hthread] at hreceive
      exact absurd hreceive (by decide)
  rw [rank_receiving hplayout hreceive]
  cases hthread : (process.receiveStep config read).1.receive.isExited with
  | true =>
    rw [rank_draining (by rw [hpc, hplayout]) hthread]
    omega
  | false =>
    rw [rank_receiving (by rw [hpc, hplayout]) hthread]
    omega

/-! ## Steps of the main thread -/

theorem mainStep_producer (process : ReceiverProcess P capacity) :
    (process.mainStep config).ring.producer = process.ring.producer := by
  have hpop (onEmpty : MainPc) : (process.popStep onEmpty).ring.producer = process.ring.producer := by
    have hproducer := process.ring.consumerStep_cases.1
    unfold ReceiverProcess.popStep
    split <;> simp_all
  unfold ReceiverProcess.mainStep
  cases process.main with
  | popping => exact hpop _
  | loadingDone => rfl
  | lastPop => exact hpop _
  | exited =>
    dsimp only
    unfold ReceiverProcess.endingStep
    cases process.ending with
    | joiningReceive =>
      dsimp only
      split <;> rfl
    | joiningPlayout =>
      dsimp only
      split <;> rfl
    | writing => rfl
    | reporting => rfl
    | exited => rfl

/-- While one of the other threads runs, the main thread does not change the rank. -/
theorem mainStep_waiting
    (hrunning : process.playout.isExited = false ∨ process.receive.isExited = false) :
    (process.mainStep config).rank = process.rank := by
  have hplayout := (mainStep_keeps config process).playout
  have hreceive := (mainStep_keeps config process).receive
  cases hexited : process.playout.isExited with
  | false =>
    rw [rank_playing hexited, rank_playing (by rw [hplayout, hexited]), hplayout,
      (mainStep_keeps config process).jbuf, mainStep_producer]
  | true =>
    have hthread : process.receive.isExited = false := by
      rcases hrunning with h | h
      · rw [hexited] at h
        exact absurd h (by decide)
      · exact h
    rw [rank_receiving hexited hthread, rank_receiving (by rw [hplayout, hexited])
      (by rw [hreceive, hthread]), hreceive]

/-- The last access of a pop that has found a frame takes it out of the ring. -/
theorem queued_release {items : List Frame} (h : SpscRing.Linked process.ring items) {tail : Fin capacity.size}
    {out : Frame} (hpc : process.ring.consumer = .storeTail tail out) :
    SpscRing.queued
        { process.ring with tail := capacity.masked (tail + 1), consumer := .idle } + 1 =
      process.ring.queued := by
  have hknows := h.consumer
  unfold SpscRing.ConsumerKnows at hknows
  rw [hpc] at hknows
  obtain ⟨rfl, hhead⟩ := hknows
  have hne : items ≠ [] := by
    rintro rfl
    exact absurd hhead (by simp)
  rw [h.queued_eq, (h.release hne).queued_eq, List.length_tail]
  have := List.length_pos_iff.mpr hne
  omega

/-- Every access of a pop lowers the rank, whether it is the pop of the loop or the last one. -/
theorem popStep_rank {items : List Frame} (h : SpscRing.Linked process.ring items) {onEmpty : MainPc}
    (hmain : (process.main = .popping ∧ onEmpty = .loadingDone) ∨
      (process.main = .lastPop ∧ onEmpty = .exited)) :
    (process.popStep onEmpty).mainRank < process.mainRank := by
  have hending := process.ending.rank_le
  cases hpc : process.ring.consumer with
  | idle =>
    have hring : process.ring.consumerStep =
        ({ process.ring with consumer := .loadHead process.ring.tail }, none) := by
      unfold SpscRing.consumerStep
      rw [hpc]
    rw [popStep_access hring]
    unfold mainRank
    rcases hmain with ⟨hmain, _⟩ | ⟨hmain, _⟩
    · rw [hmain, hpc]
      exact Nat.lt_succ_self _
    · rw [hmain, hpc]
      exact Nat.lt_succ_self _
  | loadHead tail =>
    by_cases hempty : tail = process.ring.head
    · have hring : process.ring.consumerStep =
          ({ process.ring with consumer := .idle }, some (.pop, .popped none)) := by
        unfold SpscRing.consumerStep
        rw [hpc]
        exact if_pos hempty
      rw [popStep_popped hring]
      unfold mainRank
      rcases hmain with ⟨hmain, rfl⟩ | ⟨hmain, rfl⟩
      · rw [hmain, hpc]
        exact Nat.lt_succ_self _
      · rw [hmain, hpc]
        show process.ending.rank < 7 * process.ring.queued + 5
        omega
    · have hring : process.ring.consumerStep = ({ process.ring with consumer := .readSlot tail }, none) := by
        unfold SpscRing.consumerStep
        rw [hpc]
        exact if_neg hempty
      rw [popStep_access hring]
      unfold mainRank
      rcases hmain with ⟨hmain, _⟩ | ⟨hmain, _⟩
      · rw [hmain, hpc]
        show 7 * process.ring.queued + 4 < 7 * process.ring.queued + 8
        omega
      · rw [hmain, hpc]
        exact Nat.lt_succ_self _
  | readSlot tail =>
    have hring : process.ring.consumerStep =
        ({ process.ring with consumer := .storeTail tail (process.ring.buffer.get tail) }, none) := by
      unfold SpscRing.consumerStep
      rw [hpc]
    rw [popStep_access hring]
    unfold mainRank
    rcases hmain with ⟨hmain, _⟩ | ⟨hmain, _⟩
    · rw [hmain, hpc]
      exact Nat.lt_succ_self _
    · rw [hmain, hpc]
      exact Nat.lt_succ_self _
  | storeTail tail out =>
    have hring : process.ring.consumerStep =
        ({ process.ring with tail := capacity.masked (tail + 1), consumer := .idle },
          some (.pop, .popped (some out))) := by
      unfold SpscRing.consumerStep
      rw [hpc]
    have hqueued := queued_release h hpc
    rw [popStep_popped hring]
    -- back to the first pop, with one frame less
    have hold : process.mainRank = 7 * process.ring.queued + 3 := by
      unfold mainRank
      rcases hmain with ⟨hmain, _⟩ | ⟨hmain, _⟩ <;> rw [hmain, hpc] <;> rfl
    rw [hold]
    show 7 * SpscRing.queued
      { process.ring with tail := capacity.masked (tail + 1), consumer := .idle } + 9 < _
    omega

theorem mainRank_exited (h : process.main = .exited) : process.mainRank = process.ending.rank := by
  unfold mainRank
  rw [h]
  rfl

theorem endingStep_main (process : ReceiverProcess P capacity) :
    (process.endingStep config).main = process.main := by
  unfold ReceiverProcess.endingStep
  cases process.ending with
  | joiningReceive =>
    dsimp only
    split <;> rfl
  | joiningPlayout =>
    dsimp only
    split <;> rfl
  | writing => rfl
  | reporting => rfl
  | exited => rfl

theorem endingStep_rank (hmain : process.main = .exited) (hreceive : process.receive = .exited)
    (hplayout : process.playout = .exited) (hending : process.ending ≠ .exited) :
    (process.endingStep config).mainRank < process.mainRank := by
  rw [mainRank_exited hmain, mainRank_exited ((endingStep_main process).trans hmain)]
  cases hpc : process.ending with
  | joiningReceive =>
    unfold ReceiverProcess.endingStep
    rw [hpc, hreceive]
    exact Nat.lt_succ_self _
  | joiningPlayout =>
    unfold ReceiverProcess.endingStep
    rw [hpc, hplayout]
    exact Nat.lt_succ_self _
  | writing =>
    rw [endingStep_writing hpc]
    show (if config.opens then EndingPc.reporting else EndingPc.exited).rank < _
    cases config.opens <;> decide
  | reporting =>
    rw [endingStep_reporting hpc]
    exact Nat.lt_succ_self _
  | exited => exact absurd hpc hending

/-- Alone, the main thread comes nearer to the end with every step. -/
theorem mainStep_rank (h : Draining process) (hplayout : process.playout.isExited = true)
    (hreceive : process.receive.isExited = true)
    (hrunning : process.main ≠ .exited ∨ process.ending ≠ .exited) :
    (process.mainStep config).rank < process.rank := by
  obtain ⟨items, hlinked⟩ := h.linked
  rw [rank_draining hplayout hreceive,
    rank_draining (by rw [(mainStep_keeps config process).playout, hplayout])
      (by rw [(mainStep_keeps config process).receive, hreceive])]
  cases hpc : process.main with
  | popping =>
    have hstep : process.mainStep config = process.popStep .loadingDone := by
      unfold ReceiverProcess.mainStep
      rw [hpc]
    rw [hstep]
    exact popStep_rank hlinked (Or.inl ⟨hpc, rfl⟩)
  | loadingDone =>
    have hstep : process.mainStep config = { process with main := .lastPop } := by
      unfold ReceiverProcess.mainStep
      rw [hpc, h.done (PlayoutPc.isExited_iff.mp hplayout)]
      rfl
    rw [hstep]
    unfold mainRank
    rw [hpc]
    dsimp only [MainPc.rank]
    cases process.ring.consumer <;> dsimp only <;> omega
  | lastPop =>
    have hstep : process.mainStep config = process.popStep .exited := by
      unfold ReceiverProcess.mainStep
      rw [hpc]
    rw [hstep]
    exact popStep_rank hlinked (Or.inr ⟨hpc, rfl⟩)
  | exited =>
    have hstep : process.mainStep config = process.endingStep config := by
      unfold ReceiverProcess.mainStep
      rw [hpc]
    rw [hstep]
    exact endingStep_rank hpc (ReceivePc.isExited_iff.mp hreceive) (PlayoutPc.isExited_iff.mp hplayout)
      (hrunning.resolve_left (absurd hpc))

/-! ## The rank is zero at the end and only there -/

theorem rank_eq_zero_iff : process.rank = 0 ↔
    process.playout = .exited ∧ process.receive = .exited ∧ process.main = .exited ∧
      process.ending = .exited := by
  have hending : process.ending.rank = 0 ↔ process.ending = .exited := by
    cases process.ending <;> simp [EndingPc.rank]
  cases hplayout : process.playout.isExited with
  | false =>
    have hne : process.playout ≠ .exited := fun h => by
      rw [h] at hplayout
      exact absurd hplayout (by decide)
    rw [rank_playing hplayout]
    exact ⟨fun h => absurd h (by omega), fun h => absurd h.1 hne⟩
  | true =>
    cases hreceive : process.receive.isExited with
    | false =>
      have hne : process.receive ≠ .exited := fun h => by
        rw [h] at hreceive
        exact absurd hreceive (by decide)
      rw [rank_receiving hplayout hreceive]
      exact ⟨fun h => absurd h (by omega), fun h => absurd h.2.1 hne⟩
    | true =>
      have hplayout := PlayoutPc.isExited_iff.mp hplayout
      have hreceive := ReceivePc.isExited_iff.mp hreceive
      rw [rank_draining (PlayoutPc.isExited_iff.mpr hplayout) (ReceivePc.isExited_iff.mpr hreceive)]
      cases hmain : process.main with
      | exited =>
        rw [mainRank_exited hmain, hending]
        exact ⟨fun h => ⟨hplayout, hreceive, rfl, h⟩, fun h => h.2.2.2⟩
      | popping =>
        refine ⟨fun h => absurd h ?_, fun h => MainPc.noConfusion h.2.2.1⟩
        unfold mainRank
        rw [hmain]
        cases process.ring.consumer <;> exact Nat.succ_ne_zero _
      | loadingDone =>
        refine ⟨fun h => absurd h ?_, fun h => MainPc.noConfusion h.2.2.1⟩
        unfold mainRank
        rw [hmain]
        exact Nat.succ_ne_zero _
      | lastPop =>
        refine ⟨fun h => absurd h ?_, fun h => MainPc.noConfusion h.2.2.1⟩
        unfold mainRank
        rw [hmain]
        cases process.ring.consumer <;> exact Nat.succ_ne_zero _

/-- A thread that has not finished its part of the stage lowers the rank; the others leave it alone. -/
theorem step_rank (h : Draining process) (move : ProcessMove) (hrank : process.rank ≠ 0) :
    (process.step config move).1.rank < process.rank ∨
      move.thread ≠ process.helpful ∧ (process.step config move).1.rank = process.rank ∧
        (process.step config move).1.helpful = process.helpful := by
  cases hplayout : process.playout.isExited with
  | false =>
    have hhelpful (process' : ReceiverProcess P capacity) (hsame : process'.playout = process.playout) :
        process'.helpful = .playout := by
      unfold helpful
      rw [hsame, hplayout]
      rfl
    rw [hhelpful process rfl]
    cases move with
    | receive read =>
      exact Or.inr ⟨fun h => ThreadName.noConfusion h, receiveStep_playing hplayout read,
        hhelpful _ (receiveStep_keeps config process read).playout⟩
    | playout => exact Or.inl (playoutStep_rank h hplayout)
    | main =>
      exact Or.inr ⟨by decide, mainStep_waiting (Or.inl hplayout), hhelpful _ (mainStep_keeps config process).playout⟩
  | true =>
    have hstopped : (process.playoutStep config).1 = process :=
      playoutStep_exited (PlayoutPc.isExited_iff.mp hplayout)
    cases hreceive : process.receive.isExited with
    | false =>
      have hhelpful (process' : ReceiverProcess P capacity)
          (hsame : process'.playout = process.playout) (hsame' : process'.receive = process.receive) :
          process'.helpful = .receive := by
        unfold helpful
        rw [hsame, hsame', hplayout, hreceive]
        rfl
      rw [hhelpful process rfl rfl]
      cases move with
      | receive read => exact Or.inl (receiveStep_rank h hplayout hreceive read)
      | playout =>
        refine Or.inr ⟨by decide, congrArg rank hstopped, ?_⟩
        exact (congrArg helpful hstopped).trans (hhelpful process rfl rfl)
      | main =>
        exact Or.inr ⟨by decide, mainStep_waiting (Or.inr hreceive),
          hhelpful _ (mainStep_keeps config process).playout (mainStep_keeps config process).receive⟩
    | true =>
      have hidle (read : SocketRead) : (process.receiveStep config read).1 = process :=
        receiveStep_exited (ReceivePc.isExited_iff.mp hreceive) read
      have hhelpful : process.helpful = .main := by
        unfold helpful
        rw [hplayout, hreceive]
        rfl
      have hrunning : process.main ≠ .exited ∨ process.ending ≠ .exited := by
        by_contra hboth
        obtain ⟨hmain, hending⟩ := not_or.mp hboth
        exact hrank (rank_eq_zero_iff.mpr ⟨PlayoutPc.isExited_iff.mp hplayout,
          ReceivePc.isExited_iff.mp hreceive, not_not.mp hmain, not_not.mp hending⟩)
      rw [hhelpful]
      cases move with
      | receive read =>
        exact Or.inr ⟨fun h => ThreadName.noConfusion h, congrArg rank (hidle read),
          (congrArg helpful (hidle read)).trans hhelpful⟩
      | playout =>
        exact Or.inr ⟨by decide, congrArg rank hstopped, (congrArg helpful hstopped).trans hhelpful⟩
      | main => exact Or.inl (mainStep_rank h hplayout hreceive hrunning)

theorem step_exited (h : process.rank = 0) (move : ProcessMove) :
    (process.step config move).1 = process := by
  obtain ⟨hplayout, hreceive, hmain, hending⟩ := rank_eq_zero_iff.mp h
  cases move with
  | receive read => exact receiveStep_exited hreceive read
  | playout => exact playoutStep_exited hplayout
  | main =>
    show process.mainStep config = process
    unfold ReceiverProcess.mainStep ReceiverProcess.endingStep
    rw [hmain, hending]

end Step

/-! ## Whole runs -/

variable (options junk config initial)

theorem draining_run (moves : List ProcessMove)
    (hended : JitterBuffer.streamEnded (ReceiverProcess.jbuf
      ((processSystem P config options junk capacity initial).run moves)) = true) :
    Draining ((processSystem P config options junk capacity initial).run moves) := by
  obtain ⟨threadMoves, hrefines, _⟩ :=
    process_refines options junk config initial moves
  obtain ⟨hinv, hfinished⟩ : Receiver.Settled
      ((receiverSystem (jitterSource P options junk) (capacity.size - 1)).run threadMoves) :=
    Receiver.settled_run threadMoves
  have hdone := Receiver.playoutDone_run (jitterSource P options junk) (capacity.size - 1) threadMoves
  rw [hrefines.buffer] at hinv hfinished
  rw [hrefines.playout] at hfinished hdone
  rw [hrefines.playoutDone] at hdone
  exact ⟨hinv, hended, hfinished hended, hrefines.offered, ⟨_, hrefines.linked⟩, hdone⟩

theorem step_streamEnded {process : ReceiverProcess P capacity} (h : process.jbuf.streamEnded = true)
    (move : ProcessMove) : (process.step config move).1.jbuf.streamEnded = true := by
  have hcalls := step_buffer config process move
  unfold CallsBuffer at hcalls
  split at hcalls
  · rwa [hcalls]
  · rename_i call returned _
    rw [hcalls.2]
    cases call with
    | push packet arrival => exact (JitterBuffer.push_streamEnded _ packet arrival).trans h
    | pull now => exact (JitterBuffer.pull_cursor _ now).1.trans h
    | markStreamEnded => rfl

theorem rank_le {process : ReceiverProcess P capacity} (h : Draining process) :
    process.rank ≤ 4 * (4 * 32768 + 7) + 3 + (7 * capacity.size + 12) := by
  cases hplayout : process.playout.isExited with
  | true =>
    have := rank_of_exited hplayout
    omega
  | false =>
    have hpc := PlayoutPc.rank_lt h.inv.framesLeft_le process.playout
    have hproducer := process.ring.producer.rank_le
    rw [rank_playing hplayout]
    omega

theorem helpful_process : (processSystem P config options junk capacity initial).Helpful
    (fun process => (∃ moves, process = (processSystem P config options junk capacity initial).run moves) ∧
      JitterBuffer.streamEnded (ReceiverProcess.jbuf process) = true)
    ProcessMove.thread (fun process => rank process) (fun process => helpful process) where
  keep := by
    rintro _ move ⟨⟨moves, rfl⟩, hended⟩
    exact ⟨⟨moves ++ [move], (DetSystem.run_snoc _ moves move).symm⟩, step_streamEnded config hended move⟩
  step := by
    rintro _ move ⟨⟨moves, rfl⟩, hended⟩ hrank
    exact step_rank (draining_run options junk config initial moves hended) move hrank
  stop := by
    rintro process move _ hrank
    exact (congrArg rank (step_exited hrank move)).trans hrank

/-- **Termination.** Once the stream has ended, the process exits within a fixed number of rounds in which
each thread moves at least once, in whatever order they move. -/
theorem exits_under_fair_schedules (moves more : List ProcessMove) (rounds : Nat)
    (hended : JitterBuffer.streamEnded (ReceiverProcess.jbuf
      ((processSystem P config options junk capacity initial).run moves)) = true)
    (hfair : DetSystem.Rounds ProcessMove.thread rounds more)
    (hrounds : 4 * (4 * 32768 + 7) + 3 + (7 * capacity.size + 12) ≤ rounds) :
    ReceiverProcess.ending
      ((processSystem P config options junk capacity initial).run (moves ++ more)) = .exited := by
  have hrank := (helpful_process options junk config initial).rank_eq_zero hfair
    ((processSystem P config options junk capacity initial).run moves) ⟨⟨moves, rfl⟩, hended⟩
    ((rank_le (draining_run options junk config initial moves hended)).trans hrounds)
  rw [DetSystem.run_append]
  exact (rank_eq_zero_iff.mp hrank).2.2.2

/-- The session of one packet, whose stream has ended after six moves, on a round-robin schedule. -/
theorem exits_under_fair_schedules_example :
    ReceiverProcess.ending ((shortSystem ⟨2, by decide, by decide⟩).run
      ((shortSession twoSamples).take 6 ++ (List.replicate 524345
        [.receive { datagram := none, now := {} }, .playout, .main]).flatten)) = .exited :=
  exits_under_fair_schedules (P := exactPlatform .little fun _ sample => sample) {}
    (Vector.replicate _ (Vector.replicate _ 0)) shortConfig (silentRing ⟨2, by decide, by decide⟩)
    ((shortSession twoSamples).take 6) _ 524345
    (by decide +kernel)
    (DetSystem.rounds_replicate (by
      intro thread
      cases thread with
      | receive => exact ⟨_, List.mem_cons_self, rfl⟩
      | playout => exact ⟨_, List.mem_cons_of_mem _ List.mem_cons_self, rfl⟩
      | main => exact ⟨_, List.mem_cons_of_mem _ (List.mem_cons_of_mem _ List.mem_cons_self), rfl⟩) _)
    (by decide)

end ReceiverProcess

end RtpStreamer
