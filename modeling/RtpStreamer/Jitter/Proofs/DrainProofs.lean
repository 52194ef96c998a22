import RtpStreamer.Jitter.Proofs.InvariantProofs

/-!
# The frontier and the drain

The cursor never passes the frontier, the highest frame index that a packet has proved to exist. Once
the stream has ended, the deadline no longer matters: each pull plays one frame until the cursor has
passed the frontier, and from then on no pull changes anything.
-/

namespace RtpStreamer

variable {P : Platform}

def Call.isPush : Call → Bool
  | .push _ _ => true
  | _ => false

def Call.isPull : Call → Bool
  | .pull _ => true
  | _ => false

/-- The packets pushed by the calls, in order. -/
def pushedPackets (calls : List Call) : List Packet :=
  calls.filterMap fun
    | .push packet _ => some packet
    | _ => none

theorem pushedPackets_push (calls : List Call) (packet : Packet) (arrival : U32) :
    pushedPackets (calls ++ [.push packet arrival]) = pushedPackets calls ++ [packet] := by
  simp [pushedPackets]

theorem pushedPackets_of_not_push (calls : List Call) {call : Call} (h : call.isPush = false) :
    pushedPackets (calls ++ [call]) = pushedPackets calls := by
  cases call with
  | push packet arrival => exact absurd h (by simp [Call.isPush])
  | pull now => simp [pushedPackets]
  | markStreamEnded => simp [pushedPackets]

/-- The frame indices of the packets pushed, as signed distances from the first of them. -/
def pushedIndices (calls : List Call) : List Int :=
  let sequenceNumbers := (pushedPackets calls).map Packet.sequenceNumber
  sequenceNumbers.map fun sequenceNumber => (sequenceNumber - sequenceNumbers.headD 0).toInt

theorem pushedIndices_push (calls : List Call) (packet : Packet) (arrival : U32) :
    pushedIndices (calls ++ [.push packet arrival]) = pushedIndices calls ++
      [(packet.sequenceNumber -
        ((pushedPackets calls).map Packet.sequenceNumber).headD packet.sequenceNumber).toInt] := by
  unfold pushedIndices
  rw [pushedPackets_push]
  cases pushedPackets calls with
  | nil => rfl
  | cons first packets => simp

theorem pushedIndices_of_not_push (calls : List Call) {call : Call} (h : call.isPush = false) :
    pushedIndices (calls ++ [call]) = pushedIndices calls := by
  unfold pushedIndices
  rw [pushedPackets_of_not_push calls h]

namespace JitterBuffer

/-- The frames between the cursor and the frontier. -/
def framesLeft (jb : JitterBuffer P) : Nat :=
  (jb.highestFrameIndexSeen + 1 - jb.framesPlayed.toNat).toNat

/-- The cursor stays behind the frontier, and the frontier within the positive half of the 16-bit
indices. -/
theorem Inv.frontier {jb : JitterBuffer P} (h : jb.Inv) :
    (jb.framesPlayed.toNat : Int) ≤ jb.highestFrameIndexSeen + 1 ∧
      jb.highestFrameIndexSeen + 1 ≤ 32768 := by
  have hhigh := h.highest_le
  exact ⟨h.played_le, by omega⟩

theorem Inv.framesLeft_le {jb : JitterBuffer P} (h : jb.Inv) : jb.framesLeft ≤ 32768 := by
  have hhigh := h.highest_le
  unfold framesLeft
  omega

theorem Inv.cursor_le_iff {jb : JitterBuffer P} (h : jb.Inv) :
    jb.cursor ≤ jb.highestFrameIndexSeen ↔ 0 < jb.framesLeft := by
  rw [h.cursor_eq, framesLeft]
  omega

/-- A frame is left only if the stream has started. -/
theorem Inv.started_of_left {jb : JitterBuffer P} (h : jb.Inv) (hleft : 0 < jb.framesLeft) :
    jb.started = true := by
  unfold framesLeft at hleft
  exact h.started_iff.mpr (by omega)

/-- Once the stream has ended, `finished` says that no frame is left. -/
theorem Inv.finished_iff {jb : JitterBuffer P} (h : jb.Inv) (hended : jb.streamEnded = true) :
    jb.finished = true ↔ jb.framesLeft = 0 := by
  have hcur := h.cursor_le_iff
  unfold finished
  cases hs : jb.started with
  | false =>
    have hleft : ¬ 0 < jb.framesLeft := fun hpos => by
      rw [h.started_of_left hpos] at hs
      exact absurd hs (by decide)
    simp [hended]
    omega
  | true =>
    simp [hended]
    omega

/-- A stored packet is a frame that is left. -/
theorem Inv.left_of_occupied {jb : JitterBuffer P} (h : jb.Inv) {i : Fin kCapacity}
    (hocc : (jb.slots.get i).occupied = true) : 0 < jb.framesLeft := by
  obtain ⟨_, hlo, _, hle⟩ := h.window i hocc
  unfold framesLeft
  omega

/-- The buffer is not finished while a frame is left. -/
theorem Inv.not_finished_of_left {jb : JitterBuffer P} (h : jb.Inv) (hleft : 0 < jb.framesLeft) :
    jb.finished = false := by
  cases hended : jb.streamEnded with
  | false =>
    unfold finished
    rw [h.started_of_left hleft, hended]
    rfl
  | true =>
    rw [← Bool.not_eq_true, h.finished_iff hended]
    omega

/-- Once the stream has ended, a pull produces a frame exactly when one is left. -/
theorem Inv.isDue_ended {jb : JitterBuffer P} (h : jb.Inv) (hended : jb.streamEnded = true)
    (now : U32) : jb.isDue now = true ↔ 0 < jb.framesLeft := by
  rw [isDue_iff, h.cursor_le_iff]
  constructor
  · rintro ⟨_, hleft, _⟩
    exact hleft
  · intro hleft
    exact ⟨h.started_of_left hleft, hleft, Or.inl hended⟩

@[simp] theorem push_streamEnded (jb : JitterBuffer P) (packet : Packet) (arrival : U32) :
    (jb.push packet arrival).streamEnded = jb.streamEnded := by
  obtain ⟨slots, counts, h⟩ := (jb.noteArrival packet arrival).place_frame packet arrival
  rw [push, h]; rfl

/-- What a pull leaves unchanged, and how it moves the cursor. -/
theorem pull_cursor (jb : JitterBuffer P) (now : U32) :
    (jb.tryPullDueFrame now).2.streamEnded = jb.streamEnded ∧
      (jb.tryPullDueFrame now).2.highestFrameIndexSeen = jb.highestFrameIndexSeen ∧
      (jb.tryPullDueFrame now).2.framesPlayed =
        (if jb.isDue now then jb.framesPlayed + 1 else jb.framesPlayed) := by
  rcases jb.tryPullDueFrame_cases now with ⟨hdue, hp⟩ | ⟨hdue, _, hp⟩ | ⟨hdue, _, hp⟩ <;>
    rw [hp, hdue]
  · exact ⟨rfl, rfl, rfl⟩
  · exact ⟨rfl, rfl, rfl⟩
  · exact ⟨rfl, rfl, rfl⟩

theorem pull_isSome (jb : JitterBuffer P) (now : U32) :
    (jb.tryPullDueFrame now).1.isSome = jb.isDue now := by
  rcases jb.tryPullDueFrame_cases now with ⟨hdue, hp⟩ | ⟨hdue, _, hp⟩ | ⟨hdue, _, hp⟩ <;>
    rw [hp, hdue] <;> rfl

/-- A pull that produces a frame leaves one frame less, whether the stream has ended or not. -/
theorem Inv.pull_framesLeft {jb : JitterBuffer P} (h : jb.Inv) (now : U32) :
    (jb.tryPullDueFrame now).2.framesLeft + (jb.isDue now).toNat = jb.framesLeft := by
  obtain ⟨_, hhighest, hplayed⟩ := jb.pull_cursor now
  cases hdue : jb.isDue now with
  | false =>
    rw [tryPullDueFrame_of_not_due hdue]
    rfl
  | true =>
    obtain ⟨_, hcur, _⟩ := isDue_iff.mp hdue
    rw [hdue, if_pos rfl] at hplayed
    have hleft := h.cursor_le_iff.mp hcur
    unfold framesLeft at hleft ⊢
    rw [hhighest, hplayed, h.framesPlayed_succ hcur, Bool.toNat_true]
    omega

/-- A pull takes away a frame as long as one is left, where the frames that are left are due. -/
theorem Inv.pull_of_due_iff {jb : JitterBuffer P} (h : jb.Inv) {now : U32}
    (hdue : jb.isDue now = true ↔ 0 < jb.framesLeft) :
    (jb.tryPullDueFrame now).2.framesLeft = jb.framesLeft - 1 := by
  have hleft := h.pull_framesLeft now
  by_cases hpos : 0 < jb.framesLeft
  · rw [hdue.mpr hpos, Bool.toNat_true] at hleft
    omega
  · rw [Bool.eq_false_iff.mpr (mt hdue.mp hpos), Bool.toNat_false] at hleft
    omega

/-- At the last tick of the clock every frame that is left is due. -/
theorem Inv.pull_last_tick {jb : JitterBuffer P} (h : jb.Inv) :
    (jb.tryPullDueFrame 0xFFFFFFFF).2.framesLeft = jb.framesLeft - 1 := by
  have hlast : jb.deadline ≤ 0xFFFFFFFF := BitVec.le_def.mpr (Nat.le_of_lt_succ jb.deadline.isLt)
  refine h.pull_of_due_iff ?_
  rw [isDue_iff, h.cursor_le_iff]
  exact ⟨fun hdue => hdue.2.1, fun hpos => ⟨h.started_of_left hpos, hpos, Or.inr hlast⟩⟩

/-- When no frame is left, the cursor is one past the frontier. -/
theorem Inv.played_of_none_left {jb : JitterBuffer P} (h : jb.Inv) (hleft : jb.framesLeft = 0) :
    (jb.framesPlayed.toNat : Int) = jb.highestFrameIndexSeen + 1 := by
  have hle := h.played_le
  unfold framesLeft at hleft
  omega

/-! ## The frontier of a run -/

theorem push_baseAfter (jb : JitterBuffer P) (packet : Packet) (arrival : U32) (sequenceNumber : U16) :
    (jb.push packet arrival).baseAfter sequenceNumber = jb.baseAfter packet.sequenceNumber := by
  rw [baseAfter, push_started, if_pos rfl, push_baseSequence]

theorem pull_baseAfter (jb : JitterBuffer P) (now : U32) (sequenceNumber : U16) :
    (jb.tryPullDueFrame now).2.baseAfter sequenceNumber = jb.baseAfter sequenceNumber := by
  rcases jb.tryPullDueFrame_cases now with ⟨_, hp⟩ | ⟨_, _, hp⟩ | ⟨_, _, hp⟩ <;> rw [hp] <;> rfl

/-- The frame indices are counted from the first packet pushed. -/
theorem baseAfter_run (options : Options) (junk : Vector (Vector U8 kSlotPayloadBytes) kCapacity)
    (calls : List Call) (sequenceNumber : U16) :
    baseAfter ((jitterSystem P options junk).run calls) sequenceNumber =
      ((pushedPackets calls).map Packet.sequenceNumber).headD sequenceNumber := by
  induction calls using List.reverseRecOn generalizing sequenceNumber with
  | nil => rfl
  | append_singleton calls call ih =>
    rw [DetSystem.run_snoc]
    cases call with
    | push packet arrival =>
      refine (push_baseAfter _ packet arrival sequenceNumber).trans ((ih packet.sequenceNumber).trans ?_)
      rw [pushedPackets_push]
      cases pushedPackets calls with
      | nil => rfl
      | cons first packets => rfl
    | pull now =>
      rw [pushedPackets_of_not_push calls rfl, ← ih]
      exact pull_baseAfter _ now sequenceNumber
    | markStreamEnded =>
      rw [pushedPackets_of_not_push calls rfl, ← ih]
      rfl

/-- The frontier is the highest index of a packet pushed, -1 before the first. -/
theorem highestFrameIndexSeen_run (options : Options)
    (junk : Vector (Vector U8 kSlotPayloadBytes) kCapacity) (calls : List Call) :
    highestFrameIndexSeen ((jitterSystem P options junk).run calls) =
      (pushedIndices calls).foldl max (-1) := by
  induction calls using List.reverseRecOn with
  | nil => rfl
  | append_singleton calls call ih =>
    rw [DetSystem.run_snoc]
    cases call with
    | push packet arrival =>
      rw [pushedIndices_push, List.foldl_append, ← ih, ← baseAfter_run (P := P) options junk]
      exact push_highestFrameIndexSeen _ packet arrival
    | pull now =>
      rw [pushedIndices_of_not_push calls rfl, ← ih]
      exact (pull_cursor _ now).2.1
    | markStreamEnded =>
      rw [pushedIndices_of_not_push calls rfl, ← ih]
      rfl

/-! ## After the end of the stream -/

/-- A call that is not a push keeps the stream ended; a pull takes away a frame as long as one is
left. -/
theorem Inv.next_ended {jb : JitterBuffer P} (h : jb.Inv) (hended : jb.streamEnded = true)
    {call : Call} (hcall : call.isPush = false) :
    (jb.next call).streamEnded = true ∧
      (jb.next call).framesLeft = jb.framesLeft - call.isPull.toNat := by
  cases call with
  | push packet arrival => exact absurd hcall (by simp [Call.isPush])
  | pull now =>
    obtain ⟨hkeep, _⟩ := jb.pull_cursor now
    exact ⟨hkeep.trans hended, h.pull_of_due_iff (h.isDue_ended hended now)⟩
  | markStreamEnded => exact ⟨rfl, rfl⟩

/-- After the end mark, every pull takes away one of the frames that were left. -/
theorem drain_run (options : Options) (junk : Vector (Vector U8 kSlotPayloadBytes) kCapacity)
    (calls rest : List Call) (hrest : ∀ call ∈ rest, call.isPush = false) :
    let jb : JitterBuffer P := (jitterSystem P options junk).run calls
    let ended : JitterBuffer P :=
      (jitterSystem P options junk).run (calls ++ .markStreamEnded :: rest)
    ended.streamEnded = true ∧ ended.framesLeft = jb.framesLeft - rest.countP Call.isPull := by
  intro jb ended
  induction rest using List.reverseRecOn with
  | nil =>
    have hrun : ended = jb.markStreamEnded := DetSystem.run_snoc _ calls .markStreamEnded
    rw [hrun]
    exact ⟨rfl, rfl⟩
  | append_singleton rest call ih =>
    obtain ⟨hended, hleft⟩ := ih fun call hmem => hrest call (List.mem_append_left _ hmem)
    have hrun : ended = JitterBuffer.next ((jitterSystem P options junk).run
        (calls ++ .markStreamEnded :: rest)) call := by
      show (jitterSystem P options junk).run _ = _
      rw [← List.cons_append, ← List.append_assoc, DetSystem.run_snoc]
      rfl
    obtain ⟨hended', hleft'⟩ := (inv_run options junk _).next_ended hended
      (hrest call (by simp))
    rw [hrun]
    refine ⟨hended', hleft'.trans ?_⟩
    rw [hleft, List.countP_append, List.countP_singleton]
    cases call.isPull with
    | true => exact Nat.sub_sub _ _ 1
    | false => rfl

end JitterBuffer

end RtpStreamer
