import RtpStreamer.Jitter.Proofs.DrainProofs
import RtpStreamer.Jitter.Proofs.LatenessProofs
import RtpStreamer.Receiver.Proofs.ThreadsProofs

/-!
# The playout loop of the receiver terminates

The playout thread holds the mutex while it is in its inner loop, so no packet can move the frontier
there and every frame it pulls brings it nearer to the frontier. Once the stream has ended, the thread
leaves that loop with the buffer finished, and exits.
-/

namespace RtpStreamer

variable {P : Platform} {options : Options}
  {junk : Vector (Vector U8 kSlotPayloadBytes) kCapacity} {bound : Nat}

/-- Whether it is the playout thread that moves. -/
def Move.isPlayout {source : FrameSource} : Move source → Bool
  | .playout _ => true
  | _ => false

/-- Steps that the playout thread can still make when it does not have to wait for a packet and `left`
frames lie before the frontier. -/
def PlayoutPc.rank (left : Nat) : PlayoutPc → Nat
  | .waiting => 4 * 32768 + 4
  | .pushing _ _ => 4 * left + 6
  | .countingUnderrun _ => 4 * left + 5
  | .checking _ => 4 * left + 4
  | .pulling _ => 4 * left + 3
  | .leaving => 2
  | .storingDone => 1
  | .exited => 0

theorem PlayoutPc.rank_lt {left : Nat} (h : left ≤ 32768) (pc : PlayoutPc) :
    pc.rank left < 4 * 32768 + 7 := by
  cases pc <;> simp only [PlayoutPc.rank] <;> omega

/-- Outside the mutex the rank does not depend on the frontier. -/
theorem PlayoutPc.rank_of_not_holdsMutex {pc : PlayoutPc} (h : pc.holdsMutex = false)
    (left left' : Nat) : pc.rank left = pc.rank left' := by
  cases pc <;> first | rfl | exact absurd h (by simp [PlayoutPc.holdsMutex])

namespace Receiver

open JitterBuffer

/-- The jitter buffer of a receiver. -/
def buffer (receiver : Receiver (jitterSource P options junk) bound) : JitterBuffer P :=
  receiver.jbuf

def rank (receiver : Receiver (jitterSource P options junk) bound) : Nat :=
  receiver.playout.rank receiver.buffer.framesLeft

/-- What holds of the receiver in every state: its buffer satisfies the invariant, and the playout
thread leaves the inner loop of an ended stream only when the buffer is finished. -/
structure Settled (receiver : Receiver (jitterSource P options junk) bound) : Prop where
  inv : receiver.buffer.Inv
  finished : receiver.buffer.streamEnded = true → receiver.playout = .leaving →
    receiver.buffer.finished = true

/-! ## One step -/

theorem mainStep_playout (receiver : Receiver (jitterSource P options junk) bound) :
    receiver.mainStep.playout = receiver.playout ∧ receiver.mainStep.buffer = receiver.buffer := by
  unfold mainStep
  cases receiver.main with
  | popping =>
    dsimp only
    rcases receiver.ring.pop with ⟨_ | frame, ring⟩ <;> exact ⟨rfl, rfl⟩
  | loadingDone => exact ⟨rfl, rfl⟩
  | lastPop =>
    dsimp only
    rcases receiver.ring.pop with ⟨_ | frame, ring⟩ <;> exact ⟨rfl, rfl⟩
  | exited => exact ⟨rfl, rfl⟩

theorem receiveStep_playout (receiver : Receiver (jitterSource P options junk) bound)
    (reception : Reception) :
    (receiver.receiveStep reception).playout = receiver.playout ∧
      (receiver.playout.holdsMutex = true →
        (receiver.receiveStep reception).buffer = receiver.buffer) := by
  unfold receiveStep
  by_cases hmutex : receiver.playout.holdsMutex = true
  · rw [if_pos hmutex]
    exact ⟨rfl, fun _ => rfl⟩
  · rw [if_neg hmutex]
    exact ⟨rfl, fun h => absurd h hmutex⟩

theorem Settled.receiveStep {receiver : Receiver (jitterSource P options junk) bound}
    (h : receiver.Settled) (reception : Reception) :
    (receiver.receiveStep reception).Settled := by
  obtain ⟨hpc, hbuffer⟩ := receiver.receiveStep_playout reception
  refine ⟨?_, ?_⟩
  · unfold Receiver.receiveStep
    split_ifs
    · exact h.inv
    · cases reception with
      | packet packet arrival => exact h.inv.push packet arrival
      | idle => exact h.inv.next .markStreamEnded
  · intro hended hleaving
    rw [hpc] at hleaving
    have hmutex : receiver.playout.holdsMutex = true := by rw [hleaving]; rfl
    rw [hbuffer hmutex] at hended ⊢
    exact h.finished hended hleaving

/-- What a step of the playout thread does to its program counter and to the jitter buffer. -/
inductive PlayoutMoves : JitterBuffer P → PlayoutPc → JitterBuffer P → PlayoutPc → Prop
  | wake (jb : JitterBuffer P) (now : U32) : PlayoutMoves jb .waiting jb (.pulling now)
  | nothingDue (jb : JitterBuffer P) (now : U32) (h : jb.isDue now = false) :
    PlayoutMoves jb (.pulling now) jb .leaving
  | pulled (jb : JitterBuffer P) (now : U32) (frame : Frame) (h : jb.isDue now = true) :
    PlayoutMoves jb (.pulling now) (jb.tryPullDueFrame now).2 (.pushing now frame)
  | accepted (jb : JitterBuffer P) (now : U32) (frame : Frame) :
    PlayoutMoves jb (.pushing now frame) jb (.checking now)
  | refused (jb : JitterBuffer P) (now : U32) (frame : Frame) :
    PlayoutMoves jb (.pushing now frame) jb (.countingUnderrun now)
  | counted (jb : JitterBuffer P) (now : U32) :
    PlayoutMoves jb (.countingUnderrun now) jb (.checking now)
  | again (jb : JitterBuffer P) (now : U32) (h : jb.finished = false) :
    PlayoutMoves jb (.checking now) jb (.pulling now)
  | enough (jb : JitterBuffer P) (now : U32) (h : jb.finished = true) :
    PlayoutMoves jb (.checking now) jb .leaving
  | rest (jb : JitterBuffer P) (h : jb.finished = false) : PlayoutMoves jb .leaving jb .waiting
  | finish (jb : JitterBuffer P) (h : jb.finished = true) : PlayoutMoves jb .leaving jb .storingDone
  | exit (jb : JitterBuffer P) : PlayoutMoves jb .storingDone jb .exited
  | stopped (jb : JitterBuffer P) : PlayoutMoves jb .exited jb .exited

theorem playoutStep_moves (receiver : Receiver (jitterSource P options junk) bound) (now : U32) :
    PlayoutMoves receiver.buffer receiver.playout (receiver.playoutStep now).1.buffer
      (receiver.playoutStep now).1.playout := by
  unfold playoutStep
  cases hpc : receiver.playout with
  | waiting => exact .wake _ now
  | pulling now =>
    have hcases := receiver.buffer.tryPullDueFrame_cases now
    have hmoves := PlayoutMoves.pulled receiver.buffer now
    have hpull : (jitterSource P options junk).tryPullDueFrame receiver.jbuf now =
        receiver.buffer.tryPullDueFrame now := rfl
    dsimp only
    rw [hpull]
    generalize receiver.buffer.tryPullDueFrame now = result at hcases hmoves ⊢
    rcases hcases with ⟨hdue, rfl⟩ | ⟨hdue, _, rfl⟩ | ⟨hdue, _, rfl⟩
    · exact .nothingDue _ now hdue
    · exact hmoves _ hdue
    · exact hmoves _ hdue
  | pushing now frame =>
    dsimp only
    rcases receiver.ring.push frame with ⟨_ | _, ring⟩
    · exact .refused _ now frame
    · exact .accepted _ now frame
  | countingUnderrun now => exact .counted _ now
  | checking now =>
    show PlayoutMoves _ _ receiver.buffer (if receiver.buffer.finished then .leaving else .pulling now)
    cases hfinished : receiver.buffer.finished with
    | true => exact .enough _ now hfinished
    | false => exact .again _ now hfinished
  | leaving =>
    show PlayoutMoves _ _ receiver.buffer (if receiver.buffer.finished then .storingDone else .waiting)
    cases hfinished : receiver.buffer.finished with
    | true => exact .finish _ hfinished
    | false => exact .rest _ hfinished
  | storingDone => exact .exit _
  | exited =>
    show PlayoutMoves _ _ receiver.buffer receiver.playout
    rw [hpc]
    exact .stopped _

/-- A pull that finds nothing due in an ended stream finds the buffer finished. -/
theorem finished_of_not_due {jb : JitterBuffer P} (h : jb.Inv) {now : U32}
    (hdue : jb.isDue now = false) (hended : jb.streamEnded = true) : jb.finished = true := by
  rw [h.finished_iff hended]
  by_contra hleft
  rw [(h.isDue_ended hended now).mpr (by omega)] at hdue
  exact absurd hdue (by decide)

theorem PlayoutMoves.settled {jb jb' : JitterBuffer P} {pc pc' : PlayoutPc}
    (h : PlayoutMoves jb pc jb' pc') (hinv : jb.Inv) :
    jb'.Inv ∧ jb'.streamEnded = jb.streamEnded ∧
      (jb'.streamEnded = true → pc' = .leaving → jb'.finished = true) := by
  cases h with
  | nothingDue now hdue => exact ⟨hinv, rfl, fun hended _ => finished_of_not_due hinv hdue hended⟩
  | pulled now frame hdue =>
    exact ⟨hinv.pull now, (jb.pull_cursor now).1, fun _ hpc => absurd hpc (by simp)⟩
  | enough now hfinished => exact ⟨hinv, rfl, fun _ _ => hfinished⟩
  | _ => exact ⟨hinv, rfl, fun _ hpc => absurd hpc (by simp)⟩

/-- Every step of the playout thread lowers the rank, except that it goes back to waiting when the buffer
is not finished. -/
theorem PlayoutMoves.rank_lt {jb jb' : JitterBuffer P} {pc pc' : PlayoutPc}
    (h : PlayoutMoves jb pc jb' pc') (hinv : jb.Inv) :
    pc' = .exited ∨ (pc = .leaving ∧ pc' = .waiting ∧ jb.finished = false) ∨
      pc'.rank jb'.framesLeft < pc.rank jb.framesLeft := by
  have hle := hinv.framesLeft_le
  cases h with
  | pulled now frame hdue =>
    have hleft := hinv.pull_framesLeft now
    rw [hdue, Bool.toNat_true] at hleft
    right; right
    simp only [PlayoutPc.rank]
    omega
  | rest hfinished => exact Or.inr (Or.inl ⟨rfl, rfl, hfinished⟩)
  | exit => exact Or.inl rfl
  | stopped => exact Or.inl rfl
  | _ =>
    right; right
    simp only [PlayoutPc.rank]
    omega

theorem Settled.step {receiver : Receiver (jitterSource P options junk) bound}
    (h : receiver.Settled) (move : Move (jitterSource P options junk)) :
    (receiver.step move).1.Settled := by
  cases move with
  | receive reception => exact h.receiveStep reception
  | playout now =>
    obtain ⟨hinv, _, hfinished⟩ := (receiver.playoutStep_moves now).settled h.inv
    exact ⟨hinv, hfinished⟩
  | main =>
    obtain ⟨hpc, hbuffer⟩ := receiver.mainStep_playout
    refine ⟨?_, ?_⟩
    · show receiver.mainStep.buffer.Inv
      rw [hbuffer]
      exact h.inv
    · show receiver.mainStep.buffer.streamEnded = true → receiver.mainStep.playout = .leaving →
        receiver.mainStep.buffer.finished = true
      rw [hbuffer, hpc]
      exact h.finished

theorem settled_run (moves : List (Move (jitterSource P options junk))) :
    Settled ((receiverSystem (jitterSource P options junk) bound).run moves) :=
  DetSystem.invariant (M := receiverSystem (jitterSource P options junk) bound)
    (P := fun receiver => Settled receiver)
    ⟨inv_fresh options junk, fun hended => absurd hended Bool.false_ne_true⟩
    (fun _ move h => Settled.step h move) moves

/-- No other thread raises the rank. -/
theorem step_rank {receiver : Receiver (jitterSource P options junk) bound}
    {move : Move (jitterSource P options junk)} (hmove : move.isPlayout = false) :
    (receiver.step move).1.rank = receiver.rank ∧
      (receiver.buffer.streamEnded = true → (receiver.step move).1.buffer.streamEnded = true) := by
  cases move with
  | receive reception =>
    obtain ⟨hpc, hbuffer⟩ := receiver.receiveStep_playout reception
    constructor
    · show (receiver.receiveStep reception).playout.rank _ = _
      rw [hpc]
      cases hmutex : receiver.playout.holdsMutex with
      | true =>
        show receiver.playout.rank (receiver.receiveStep reception).buffer.framesLeft = _
        rw [hbuffer hmutex]
        rfl
      | false => exact PlayoutPc.rank_of_not_holdsMutex hmutex _ _
    · intro hended
      show (receiver.receiveStep reception).buffer.streamEnded = true
      unfold receiveStep
      split_ifs
      · exact hended
      · cases reception with
        | packet packet arrival =>
          show (receiver.buffer.push packet arrival).streamEnded = true
          rw [push_streamEnded]
          exact hended
        | idle => rfl
  | playout now => exact absurd hmove (by simp [Move.isPlayout])
  | main =>
    obtain ⟨hpc, hbuffer⟩ := receiver.mainStep_playout
    constructor
    · show receiver.mainStep.playout.rank receiver.mainStep.buffer.framesLeft = _
      rw [hpc, hbuffer]
      rfl
    · show _ → receiver.mainStep.buffer.streamEnded = true
      rw [hbuffer]
      exact id

/-- A step of the playout thread lowers the rank, unless it ends the loop over the frames; a step of
another thread does not raise it. -/
theorem Settled.progress {receiver : Receiver (jitterSource P options junk) bound}
    (h : receiver.Settled) (move : Move (jitterSource P options junk)) :
    (receiver.step move).1.playout = .exited ∨
      (receiver.playout = .leaving ∧ (receiver.step move).1.playout = .waiting ∧
        receiver.buffer.finished = false) ∨
      (receiver.step move).1.rank + move.isPlayout.toNat ≤ receiver.rank := by
  cases hmove : move.isPlayout with
  | false => exact Or.inr (Or.inr (le_of_eq (step_rank hmove).1))
  | true =>
    cases move with
    | playout now => exact (receiver.playoutStep_moves now).rank_lt h.inv
    | receive reception => exact absurd hmove (by simp [Move.isPlayout])
    | main => exact absurd hmove (by simp [Move.isPlayout])

theorem Settled.step_streamEnded {receiver : Receiver (jitterSource P options junk) bound}
    (h : receiver.Settled) (hended : receiver.buffer.streamEnded = true)
    (move : Move (jitterSource P options junk)) :
    (receiver.step move).1.buffer.streamEnded = true := by
  cases hmove : move.isPlayout with
  | false => exact (step_rank hmove).2 hended
  | true =>
    cases move with
    | playout now => exact ((receiver.playoutStep_moves now).settled h.inv).2.1.trans hended
    | receive reception => exact absurd hmove (by simp [Move.isPlayout])
    | main => exact absurd hmove (by simp [Move.isPlayout])

theorem step_exited {receiver : Receiver (jitterSource P options junk) bound}
    (h : receiver.playout = .exited) (move : Move (jitterSource P options junk)) :
    (receiver.step move).1.playout = .exited := by
  cases move with
  | receive reception => exact (receiver.receiveStep_playout reception).1.trans h
  | playout now =>
    show (receiver.playoutStep now).1.playout = .exited
    unfold playoutStep
    rw [h]
    exact h
  | main => exact receiver.mainStep_playout.1.trans h

/-! ## Whole runs -/

/-- The inner loop of the playout thread comes to an end at every tick. -/
theorem leaves_inner_loop (moves more : List (Move (jitterSource P options junk)))
    (hmore : 4 * 32768 + 7 ≤ more.countP Move.isPlayout) :
    ∃ mid, mid <+: more ∧
      (playout ((receiverSystem (jitterSource P options junk) bound).run
        (moves ++ mid))).holdsMutex = false := by
  have hsettled : Settled ((receiverSystem (jitterSource P options junk) bound).run moves) :=
    settled_run moves
  refine DetSystem.reaches_of_rank (M := receiverSystem (jitterSource P options junk) bound)
    (I := fun receiver => Settled receiver)
    (G := fun receiver => (playout receiver).holdsMutex = false)
    (fun receiver => rank receiver) (fun _ move h => Settled.step h move) ?_ more moves hsettled
    (lt_of_lt_of_le (PlayoutPc.rank_lt hsettled.inv.framesLeft_le _) hmore)
  intro receiver move h _
  rcases Settled.progress h move with hexit | ⟨_, hwait, _⟩ | hrank
  · left
    show ((step receiver move).1.playout).holdsMutex = false
    rw [hexit]
    rfl
  · left
    show ((step receiver move).1.playout).holdsMutex = false
    rw [hwait]
    rfl
  · exact Or.inr hrank

/-- Once the stream has ended, the playout thread drains the buffer and exits. -/
theorem exits_after_end (moves more : List (Move (jitterSource P options junk)))
    (hended : (buffer ((receiverSystem (jitterSource P options junk) bound).run
      moves)).streamEnded = true)
    (hmore : 4 * 32768 + 7 ≤ more.countP Move.isPlayout) :
    playout ((receiverSystem (jitterSource P options junk) bound).run (moves ++ more)) =
      .exited := by
  have hsettled : Settled ((receiverSystem (jitterSource P options junk) bound).run moves) :=
    settled_run moves
  have hreach : ∃ mid, mid <+: more ∧
      playout ((receiverSystem (jitterSource P options junk) bound).run (moves ++ mid)) =
        .exited := by
    refine DetSystem.reaches_of_rank (M := receiverSystem (jitterSource P options junk) bound)
      (I := fun receiver => Settled receiver ∧ (buffer receiver).streamEnded = true)
      (G := fun receiver => playout receiver = .exited) (fun receiver => rank receiver)
      (fun _ move h => ⟨Settled.step h.1 move, h.1.step_streamEnded h.2 move⟩) ?_ more moves
      ⟨hsettled, hended⟩
      (lt_of_lt_of_le (PlayoutPc.rank_lt hsettled.inv.framesLeft_le _) hmore)
    rintro receiver move ⟨h, hended⟩ _
    rcases Settled.progress h move with hexit | ⟨hleaving, _, hnot⟩ | hrank
    · exact Or.inl hexit
    · -- the loop of an ended stream is left only with the buffer finished
      rw [h.finished hended hleaving] at hnot
      exact absurd hnot (by decide)
    · exact Or.inr hrank
  obtain ⟨mid, ⟨rest, rfl⟩, hexited⟩ := hreach
  rw [← List.append_assoc]
  clear hmore
  induction rest using List.reverseRecOn with
  | nil => rwa [List.append_nil]
  | append_singleton rest move ih =>
    rw [← List.append_assoc, DetSystem.run_snoc]
    exact step_exited ih move

end Receiver

open JitterBuffer

/-- **Frontier and drain.** In every reachable state the frontier is the highest index of a packet pushed,
which stays below 32768, and the cursor is at most one past it. After the end mark and without further
pushes a pull returns true exactly as long as fewer pulls were made than frames were left, whatever the
clock; then the buffer is finished, and a pull changes nothing. In the receiver the inner loop of the
playout thread ends at every tick, and once the stream has ended the thread exits. -/
theorem frontier_and_drain (P : Platform) (options : Options)
    (junk : Vector (Vector U8 kSlotPayloadBytes) kCapacity) :
    (∀ calls : List Call,
      let jb : JitterBuffer P := (jitterSystem P options junk).run calls
      let left := jb.highestFrameIndexSeen + 1 - jb.framesPlayed.toNat
      jb.highestFrameIndexSeen = (pushedIndices calls).foldl max (-1) ∧
      (jb.framesPlayed.toNat : Int) ≤ jb.highestFrameIndexSeen + 1 ∧
      jb.highestFrameIndexSeen + 1 ≤ 32768 ∧
      ∀ rest : List Call, (∀ call ∈ rest, call.isPush = false) →
        let ended : JitterBuffer P :=
          (jitterSystem P options junk).run (calls ++ .markStreamEnded :: rest)
        let pulls : Int := rest.countP Call.isPull
        (∀ now, (ended.tryPullDueFrame now).1.isSome = true ↔ pulls < left) ∧
        (ended.finished = true ↔ left ≤ pulls) ∧
        (left ≤ pulls → ∀ now, ended.tryPullDueFrame now = (none, ended))) ∧
    ∀ (bound : Nat) (moves more : List (Move (jitterSource P options junk))),
      4 * 32768 + 7 ≤ more.countP Move.isPlayout →
      let receiver (moves : List (Move (jitterSource P options junk))) :
        Receiver (jitterSource P options junk) bound := (receiverSystem _ bound).run moves
      (∃ mid, mid <+: more ∧ (receiver (moves ++ mid)).playout.holdsMutex = false) ∧
      ((receiver moves).buffer.streamEnded = true → (receiver (moves ++ more)).playout = .exited) := by
  refine ⟨?_, fun bound moves more hmore =>
    ⟨Receiver.leaves_inner_loop moves more hmore,
      fun hended => Receiver.exits_after_end moves more hended hmore⟩⟩
  intro calls jb left
  have hinv : jb.Inv := inv_run options junk calls
  obtain ⟨hplayed, hhighest⟩ := hinv.frontier
  refine ⟨highestFrameIndexSeen_run options junk calls, hplayed, hhighest, ?_⟩
  intro rest hrest ended pulls
  obtain ⟨hended, hleft⟩ := drain_run (P := P) options junk calls rest hrest
  have hinv' : ended.Inv := inv_run options junk _
  have hzero : ended.framesLeft = (left - pulls).toNat := by
    refine hleft.trans ?_
    show jb.framesLeft - _ = _
    unfold framesLeft
    omega
  have hdue (now : U32) : ended.isDue now = true ↔ pulls < left := by
    rw [hinv'.isDue_ended hended, hzero]
    omega
  refine ⟨?_, ?_, ?_⟩
  · intro now
    rw [pull_isSome]
    exact hdue now
  · rw [hinv'.finished_iff hended, hzero]
    omega
  · intro hdrained now
    refine tryPullDueFrame_of_not_due (Bool.eq_false_iff.mpr ?_)
    rw [Ne, hdue]
    omega

/-- With packets 0 and 2 pushed, three pulls drain an ended stream at any clock; a receiver whose stream
has ended without a packet exits. -/
theorem frontier_and_drain_example :
    let P := exactPlatform .little fun _ sample => sample
    let junk := Vector.replicate kCapacity (Vector.replicate kSlotPayloadBytes 0)
    let ended : JitterBuffer P := (jitterSystem P {} junk).run
      ([.push (silentPacket 0) 0, .push (silentPacket 2) 0] ++
        .markStreamEnded :: [.pull 0, .pull 7, .pull 0])
    let receiver : Receiver (jitterSource P {} junk) 8 := (receiverSystem _ 8).run
      ([.receive .idle] ++ List.replicate 131079 (.playout 160))
    ended.finished = true ∧ ended.tryPullDueFrame 5 = (none, ended) ∧ receiver.playout = .exited := by
  intro P junk ended receiver
  obtain ⟨hdrain, hreceiver⟩ := frontier_and_drain P {} junk
  obtain ⟨_, _, _, hrest⟩ := hdrain [.push (silentPacket 0) 0, .push (silentPacket 2) 0]
  obtain ⟨_, hfinished, hnone⟩ := hrest [.pull 0, .pull 7, .pull 0] (by simp [Call.isPush])
  have hcount : 4 * 32768 + 7 ≤ (List.replicate 131079
      (.playout 160 : Move (jitterSource P {} junk))).countP Move.isPlayout := by
    rw [List.countP_replicate]
    exact le_of_eq rfl
  exact ⟨hfinished.mpr (by decide +kernel), hnone (by decide +kernel) 5,
    (hreceiver 8 [.receive .idle] _ hcount).2 rfl⟩

end RtpStreamer
