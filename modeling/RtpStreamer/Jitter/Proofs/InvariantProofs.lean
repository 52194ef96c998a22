import RtpStreamer.Jitter.JitterBuffer
import Mathlib.Algebra.Order.Group.Int

/-!
# The playout invariant of the jitter buffer

Slots are addressed by `sequence_number % 32` while the cursor is a frame offset. The invariant ties
the two together: an occupied slot holds a packet whose frame index lies in the window of 32 frames
that starts at the cursor. Two packets of that window never share a slot, so a push never overwrites
an occupied slot and a pull never reads a stale one.
-/

namespace RtpStreamer

variable {P : Platform}

/-! ## Sequence arithmetic -/

/-- A 16-bit difference read as a signed number is the difference modulo 2^16. -/
theorem toInt_sub_spec (a b : U16) :
    -32768 ≤ (a - b).toInt ∧ (a - b).toInt ≤ 32767 ∧
      ∃ q : Int, (a.toNat : Int) = b.toNat + (a - b).toInt + 65536 * q := by
  have ha := a.isLt
  have hb := b.isLt
  rw [BitVec.toInt_eq_toNat_cond, BitVec.toNat_sub]
  refine ⟨?_, ?_, (a.toNat - b.toNat - (if 2 * ((2 ^ 16 - b.toNat + a.toNat) % 2 ^ 16) < 2 ^ 16
      then (((2 ^ 16 - b.toNat + a.toNat) % 2 ^ 16 : Nat) : Int)
      else (((2 ^ 16 - b.toNat + a.toNat) % 2 ^ 16 : Nat) : Int) - (2 ^ 16 : Nat))) / 65536, ?_⟩ <;>
    split_ifs <;> omega

namespace JitterBuffer

/-- A frame index determines its sequence number. -/
theorem frameIndex_injective (jb : JitterBuffer P) {a b : U16}
    (h : jb.frameIndex a = jb.frameIndex b) : a = b := by
  obtain ⟨_, _, q, ha⟩ := toInt_sub_spec a jb.baseSequence
  obtain ⟨_, _, r, hb⟩ := toInt_sub_spec b jb.baseSequence
  unfold frameIndex at h
  have h1 := a.isLt
  have h2 := b.isLt
  apply BitVec.eq_of_toNat_eq
  omega

/-- Two packets of one window of 32 frames have different slots. -/
theorem eq_of_slotIndex_eq (jb : JitterBuffer P) {a b : U16} (h : slotIndex a = slotIndex b)
    (hlt : jb.frameIndex a - jb.frameIndex b < 32) (hgt : jb.frameIndex b - jb.frameIndex a < 32) :
    a = b := by
  apply frameIndex_injective jb
  obtain ⟨_, _, q, ha⟩ := toInt_sub_spec a jb.baseSequence
  obtain ⟨_, _, r, hb⟩ := toInt_sub_spec b jb.baseSequence
  have hmod : a.toNat % 32 = b.toNat % 32 := congrArg Fin.val h
  unfold frameIndex at hlt hgt ⊢
  omega

/-- The frame index of the sequence number at the cursor is the cursor. -/
theorem frameIndex_cursorSequence (jb : JitterBuffer P) (h : jb.framesPlayed.toNat ≤ 32767) :
    jb.frameIndex jb.cursorSequence = jb.framesPlayed.toNat := by
  obtain ⟨h1, h2, q, hq⟩ := toInt_sub_spec jb.cursorSequence jb.baseSequence
  have hb := jb.baseSequence.isLt
  have hs : jb.cursorSequence.toNat = (jb.baseSequence.toNat + jb.framesPlayed.toNat) % 65536 := by
    simp only [cursorSequence, BitVec.toNat_setWidth, BitVec.toNat_add]
    omega
  unfold frameIndex
  omega

/-- Below 2^31 the cast of the cursor to `int32_t` does not change it. -/
theorem cursor_eq {jb : JitterBuffer P} (h : jb.framesPlayed.toNat ≤ 32768) :
    jb.cursor = jb.framesPlayed.toNat := by
  rw [cursor, BitVec.toInt_eq_toNat_cond, if_pos (by omega)]

/-! ## What each call can do -/

/-- A frame is due when the stream has started, the frontier has reached the cursor, and the
deadline has passed or the stream has ended. -/
theorem isDue_iff {jb : JitterBuffer P} {now : U32} :
    jb.isDue now = true ↔
      jb.started = true ∧ jb.cursor ≤ jb.highestFrameIndexSeen ∧
        (jb.streamEnded = true ∨ jb.deadline ≤ now) := by
  unfold isDue finished
  cases jb.started <;> cases jb.streamEnded <;> simp

section Place

variable {jb : JitterBuffer P} {packet : Packet}

theorem place_of_past (h : jb.frameIndex packet.sequenceNumber < jb.cursor) (arrival : U32) :
    jb.place packet arrival = jb.dropLate := if_pos h

theorem place_of_ahead (h : jb.cursor + 32 ≤ jb.frameIndex packet.sequenceNumber) (arrival : U32) :
    jb.place packet arrival = jb.dropLate := by
  have hcap : (kCapacity : Int) = 32 := rfl
  unfold place
  simp only [if_neg (show ¬ jb.frameIndex packet.sequenceNumber < jb.cursor by omega),
    if_pos (show jb.frameIndex packet.sequenceNumber - jb.cursor ≥ kCapacity by omega)]

/-- A packet whose frame is in the window is a duplicate or is stored. -/
theorem place_of_window (hlo : jb.cursor ≤ jb.frameIndex packet.sequenceNumber)
    (hhi : jb.frameIndex packet.sequenceNumber < jb.cursor + 32) (arrival : U32) :
    jb.place packet arrival =
      if jb.holds packet.sequenceNumber then jb.dropDuplicate else jb.store packet arrival := by
  have hcap : (kCapacity : Int) = 32 := rfl
  unfold place
  simp only [if_neg (show ¬ jb.frameIndex packet.sequenceNumber < jb.cursor by omega),
    if_neg (show ¬ jb.frameIndex packet.sequenceNumber - jb.cursor ≥ kCapacity by omega)]

end Place

/-- The four outcomes of placing a packet. -/
theorem place_cases (jb : JitterBuffer P) (packet : Packet) (arrival : U32) :
    (jb.frameIndex packet.sequenceNumber < jb.cursor ∧
      jb.place packet arrival = jb.dropLate) ∨
    (jb.cursor + 32 ≤ jb.frameIndex packet.sequenceNumber ∧
      jb.place packet arrival = jb.dropLate) ∨
    (jb.cursor ≤ jb.frameIndex packet.sequenceNumber ∧
      jb.frameIndex packet.sequenceNumber < jb.cursor + 32 ∧
      jb.holds packet.sequenceNumber = true ∧ jb.place packet arrival = jb.dropDuplicate) ∨
    (jb.cursor ≤ jb.frameIndex packet.sequenceNumber ∧
      jb.frameIndex packet.sequenceNumber < jb.cursor + 32 ∧
      jb.holds packet.sequenceNumber = false ∧
      jb.place packet arrival = jb.store packet arrival) := by
  by_cases h1 : jb.frameIndex packet.sequenceNumber < jb.cursor
  · exact Or.inl ⟨h1, place_of_past h1 arrival⟩
  · by_cases h2 : jb.cursor + 32 ≤ jb.frameIndex packet.sequenceNumber
    · exact Or.inr (Or.inl ⟨h2, place_of_ahead h2 arrival⟩)
    · have hwindow : jb.place packet arrival =
          if jb.holds packet.sequenceNumber then jb.dropDuplicate else jb.store packet arrival :=
        place_of_window (by omega) (by omega) arrival
      cases h3 : jb.holds packet.sequenceNumber with
      | true =>
        rw [h3, if_pos rfl] at hwindow
        exact Or.inr (Or.inr (Or.inl ⟨by omega, by omega, rfl, hwindow⟩))
      | false =>
        rw [h3, if_neg Bool.false_ne_true] at hwindow
        exact Or.inr (Or.inr (Or.inr ⟨by omega, by omega, rfl, hwindow⟩))

/-- Placing a packet changes only the slots and the counters. -/
theorem place_frame (jb : JitterBuffer P) (packet : Packet) (arrival : U32) :
    ∃ slots counts, jb.place packet arrival = { jb with slots := slots, counts := counts } := by
  rcases jb.place_cases packet arrival with ⟨_, hp⟩ | ⟨_, hp⟩ | ⟨_, _, _, hp⟩ | ⟨_, _, _, hp⟩ <;>
    rw [hp]
  · exact ⟨_, _, rfl⟩
  · exact ⟨_, _, rfl⟩
  · exact ⟨_, _, rfl⟩
  · exact ⟨_, _, rfl⟩

@[simp] theorem push_started (jb : JitterBuffer P) (packet : Packet) (arrival : U32) :
    (jb.push packet arrival).started = true := by
  obtain ⟨slots, counts, h⟩ := (jb.noteArrival packet arrival).place_frame packet arrival
  rw [push, h]; rfl

@[simp] theorem push_baseSequence (jb : JitterBuffer P) (packet : Packet) (arrival : U32) :
    (jb.push packet arrival).baseSequence = jb.baseAfter packet.sequenceNumber := by
  obtain ⟨slots, counts, h⟩ := (jb.noteArrival packet arrival).place_frame packet arrival
  rw [push, h]; rfl

@[simp] theorem push_framesPlayed (jb : JitterBuffer P) (packet : Packet) (arrival : U32) :
    (jb.push packet arrival).framesPlayed = jb.framesPlayed := by
  obtain ⟨slots, counts, h⟩ := (jb.noteArrival packet arrival).place_frame packet arrival
  rw [push, h]; rfl

@[simp] theorem push_highestFrameIndexSeen (jb : JitterBuffer P) (packet : Packet)
    (arrival : U32) : (jb.push packet arrival).highestFrameIndexSeen =
      max jb.highestFrameIndexSeen
        (packet.sequenceNumber - jb.baseAfter packet.sequenceNumber).toInt := by
  obtain ⟨slots, counts, h⟩ := (jb.noteArrival packet arrival).place_frame packet arrival
  rw [push, h]; rfl

@[simp] theorem push_estimate (jb : JitterBuffer P) (packet : Packet) (arrival : U32) :
    (jb.push packet arrival).estimate =
      updateJitterEstimate jb.options jb.estimate packet.rtpTimestamp arrival := by
  obtain ⟨slots, counts, h⟩ := (jb.noteArrival packet arrival).place_frame packet arrival
  rw [push, h]; rfl

/-- The frame that stands in for a missing one. -/
def concealedFrame (jb : JitterBuffer P) : Frame :=
  if jb.concealsSilence then silence
  else jb.lastRealFrame.map (P.fade (jb.consecutiveConcealments + 1))

/-- The buffer after concealing the frame at the cursor. -/
def afterConcealed (jb : JitterBuffer P) : JitterBuffer P :=
  { jb with
    framesPlayed := jb.framesPlayed + 1
    consecutiveConcealments :=
      if jb.concealsSilence then jb.consecutiveConcealments else jb.consecutiveConcealments + 1
    counts := { jb.counts with
      lost := jb.counts.lost + 1
      concealed := jb.counts.concealed + 1 } }

/-- The buffer after playing the packet of the frame at the cursor. -/
def afterReal (jb : JitterBuffer P) (now : U32) : JitterBuffer P :=
  { (jb.playReal now).2 with framesPlayed := jb.framesPlayed + 1 }

/-- The frame in the slot of the cursor. -/
def realFrame (jb : JitterBuffer P) : Frame :=
  decodeSlot P.byteOrder (jb.slots.get (slotIndex jb.cursorSequence))

theorem playConcealed_eq (jb : JitterBuffer P) :
    (jb.playConcealed.1,
      { jb.playConcealed.2 with framesPlayed := jb.playConcealed.2.framesPlayed + 1 }) =
      (jb.concealedFrame, jb.afterConcealed) := by
  have hs : ∀ counts, concealsSilence { jb with counts := counts } = jb.concealsSilence :=
    fun _ => rfl
  unfold playConcealed conceal concealedFrame afterConcealed
  simp only [hs]
  cases jb.concealsSilence <;> rfl

theorem tryPullDueFrame_of_not_due {jb : JitterBuffer P} {now : U32}
    (hdue : jb.isDue now = false) : jb.tryPullDueFrame now = (none, jb) := by
  unfold tryPullDueFrame
  rw [hdue]
  rfl

theorem tryPullDueFrame_of_holds {jb : JitterBuffer P} {now : U32} (hdue : jb.isDue now = true)
    (hh : jb.holds jb.cursorSequence = true) :
    jb.tryPullDueFrame now = (some jb.realFrame, jb.afterReal now) := by
  unfold tryPullDueFrame produce
  rw [hdue, hh]
  rfl

theorem tryPullDueFrame_of_not_holds {jb : JitterBuffer P} {now : U32}
    (hdue : jb.isDue now = true) (hh : jb.holds jb.cursorSequence = false) :
    jb.tryPullDueFrame now = (some jb.concealedFrame, jb.afterConcealed) := by
  have h := playConcealed_eq jb
  rw [Prod.ext_iff] at h
  unfold tryPullDueFrame produce
  rw [hdue, hh]
  exact Prod.ext (congrArg some h.1) h.2

/-- A pull either finds nothing due and changes nothing, or plays the packet of the cursor, or
conceals. -/
theorem tryPullDueFrame_cases (jb : JitterBuffer P) (now : U32) :
    (jb.isDue now = false ∧ jb.tryPullDueFrame now = (none, jb)) ∨
    (jb.isDue now = true ∧ jb.holds jb.cursorSequence = true ∧
      jb.tryPullDueFrame now = (some jb.realFrame, jb.afterReal now)) ∨
    (jb.isDue now = true ∧ jb.holds jb.cursorSequence = false ∧
      jb.tryPullDueFrame now = (some jb.concealedFrame, jb.afterConcealed)) := by
  cases hd : jb.isDue now with
  | false => exact Or.inl ⟨rfl, tryPullDueFrame_of_not_due hd⟩
  | true =>
    cases hh : jb.holds jb.cursorSequence with
    | true => exact Or.inr (Or.inl ⟨rfl, rfl, tryPullDueFrame_of_holds hd hh⟩)
    | false => exact Or.inr (Or.inr ⟨rfl, rfl, tryPullDueFrame_of_not_holds hd hh⟩)

/-! ## The invariant -/

/-- The playout invariant. -/
structure Inv (jb : JitterBuffer P) : Prop where
  highest_le : jb.highestFrameIndexSeen ≤ 32767
  /-- The cursor never runs past the frontier. -/
  played_le : (jb.framesPlayed.toNat : Int) ≤ jb.highestFrameIndexSeen + 1
  started_iff : jb.started = true ↔ 0 ≤ jb.highestFrameIndexSeen
  /-- An occupied slot is the slot of its packet, whose frame lies in the window of the cursor and
  not beyond the frontier. -/
  window : ∀ i, (jb.slots.get i).occupied = true →
    slotIndex (jb.slots.get i).sequenceNumber = i ∧
    (jb.framesPlayed.toNat : Int) ≤ jb.frameIndex (jb.slots.get i).sequenceNumber ∧
    jb.frameIndex (jb.slots.get i).sequenceNumber < jb.framesPlayed.toNat + 32 ∧
    jb.frameIndex (jb.slots.get i).sequenceNumber ≤ jb.highestFrameIndexSeen

theorem Inv.cursor_eq {jb : JitterBuffer P} (h : jb.Inv) : jb.cursor = jb.framesPlayed.toNat :=
  JitterBuffer.cursor_eq (by have := h.highest_le; have := h.played_le; omega)

/-- A cursor that is not past the frontier moves on without overflow. -/
theorem Inv.framesPlayed_succ {jb : JitterBuffer P} (h : jb.Inv)
    (hcur : jb.cursor ≤ jb.highestFrameIndexSeen) :
    (jb.framesPlayed + 1).toNat = jb.framesPlayed.toNat + 1 := by
  have hhigh := h.highest_le
  rw [h.cursor_eq] at hcur
  rw [BitVec.toNat_add]
  show (jb.framesPlayed.toNat + 1) % 2 ^ 32 = _
  omega

/-- The sequence number at such a cursor is the one with its frame index. -/
theorem Inv.frameIndex_cursor {jb : JitterBuffer P} (h : jb.Inv)
    (hcur : jb.cursor ≤ jb.highestFrameIndexSeen) :
    jb.frameIndex jb.cursorSequence = jb.framesPlayed.toNat := by
  have hhigh := h.highest_le
  rw [h.cursor_eq] at hcur
  exact frameIndex_cursorSequence jb (by omega)

theorem Inv.not_occupied {jb : JitterBuffer P} (h : jb.Inv) (hs : jb.started = false)
    (i : Fin kCapacity) : (jb.slots.get i).occupied = false := by
  by_contra hocc
  obtain ⟨_, hlo, _, hhi⟩ := h.window i (by simpa using hocc)
  have : ¬ 0 ≤ jb.highestFrameIndexSeen := fun h0 => by simp [h.started_iff.mpr h0] at hs
  omega

theorem holds_iff {jb : JitterBuffer P} {seq : U16} :
    jb.holds seq = true ↔
      (jb.slots.get (slotIndex seq)).occupied = true ∧
        (jb.slots.get (slotIndex seq)).sequenceNumber = seq := by
  simp [holds]

/-- The slot of a packet in the window is free unless it holds that very packet. -/
theorem Inv.free_slot {jb : JitterBuffer P} (h : jb.Inv) {seq : U16}
    (hlo : (jb.framesPlayed.toNat : Int) ≤ jb.frameIndex seq)
    (hhi : jb.frameIndex seq < jb.framesPlayed.toNat + 32) (hh : jb.holds seq = false) :
    (jb.slots.get (slotIndex seq)).occupied = false := by
  by_contra hocc
  have hocc : (jb.slots.get (slotIndex seq)).occupied = true := by simpa using hocc
  obtain ⟨hslot, hlo', hhi', _⟩ := h.window _ hocc
  have hseq := eq_of_slotIndex_eq jb hslot (by omega) (by omega)
  rw [holds_iff.mpr ⟨hocc, hseq⟩] at hh
  exact absurd hh (by decide)

theorem get_setAt {α : Type} {n : Nat} (xs : Vector α n) (i j : Fin n) (x : α) :
    (setAt xs i x).get j = if i = j then x else xs.get j := by
  show (xs.set i.val x i.isLt)[j.val] = if i = j then x else xs[j.val]
  rw [Vector.getElem_set]
  simp only [Fin.ext_iff]

/-! ### Every call keeps the invariant -/

theorem fresh_not_occupied (options : Options)
    (junk : Vector (Vector U8 kSlotPayloadBytes) kCapacity) (i : Fin kCapacity) :
    ((fresh P options junk).slots.get i).occupied = false := by
  show ((fresh P options junk).slots[i.val]).occupied = false
  simp [fresh]

theorem inv_fresh (options : Options) (junk : Vector (Vector U8 kSlotPayloadBytes) kCapacity) :
    (fresh P options junk).Inv where
  highest_le := by simp [fresh]
  played_le := by simp [fresh]
  started_iff := by simp [fresh]
  window := by
    intro i hocc
    rw [fresh_not_occupied] at hocc
    exact absurd hocc (by decide)

theorem Inv.noteArrival {jb : JitterBuffer P} (h : jb.Inv) (packet : Packet) (arrival : U32) :
    (jb.noteArrival packet arrival).Inv := by
  have hi := toInt_sub_spec packet.sequenceNumber (jb.baseAfter packet.sequenceNumber)
  have hhigh := h.highest_le
  have hplayed := h.played_le
  refine ⟨?_, ?_, ?_, ?_⟩
  · show max jb.highestFrameIndexSeen _ ≤ 32767
    omega
  · show (jb.framesPlayed.toNat : Int) ≤ max jb.highestFrameIndexSeen _ + 1
    omega
  · show true = true ↔ 0 ≤ max jb.highestFrameIndexSeen
      (packet.sequenceNumber - jb.baseAfter packet.sequenceNumber).toInt
    cases hs : jb.started with
    | true =>
      have := h.started_iff.mp hs
      simp; omega
    | false => simp [baseAfter, hs]
  · intro i hocc
    cases hs : jb.started with
    | true =>
      have hbase : (jb.noteArrival packet arrival).baseSequence = jb.baseSequence := by
        simp [JitterBuffer.noteArrival, baseAfter, hs]
      obtain ⟨hslot, hlo, hhi, hle⟩ := h.window i hocc
      simp only [frameIndex, hbase]
      refine ⟨hslot, hlo, hhi, ?_⟩
      show _ ≤ max jb.highestFrameIndexSeen _
      exact le_trans hle (le_max_left _ _)
    | false => exact absurd hocc (by simp [JitterBuffer.noteArrival, h.not_occupied hs])

theorem Inv.store {jb : JitterBuffer P} (h : jb.Inv) {packet : Packet} (arrival : U32)
    (hlo : (jb.framesPlayed.toNat : Int) ≤ jb.frameIndex packet.sequenceNumber)
    (hhi : jb.frameIndex packet.sequenceNumber < jb.framesPlayed.toNat + 32)
    (hle : jb.frameIndex packet.sequenceNumber ≤ jb.highestFrameIndexSeen) :
    (jb.store packet arrival).Inv := by
  refine ⟨h.highest_le, h.played_le, h.started_iff, ?_⟩
  intro i hocc
  simp only [JitterBuffer.store, get_setAt] at hocc ⊢
  by_cases hi : slotIndex packet.sequenceNumber = i
  · rw [if_pos hi]
    exact ⟨hi, hlo, hhi, hle⟩
  · rw [if_neg hi] at hocc ⊢
    exact h.window i hocc

theorem noteArrival_highest {jb : JitterBuffer P} (packet : Packet) (arrival : U32) :
    (jb.noteArrival packet arrival).frameIndex packet.sequenceNumber ≤
      (jb.noteArrival packet arrival).highestFrameIndexSeen :=
  le_max_right _ _

theorem Inv.push {jb : JitterBuffer P} (h : jb.Inv) (packet : Packet) (arrival : U32) :
    (jb.push packet arrival).Inv := by
  have hn := h.noteArrival packet arrival
  have hcur := hn.cursor_eq
  unfold JitterBuffer.push
  rcases place_cases (jb.noteArrival packet arrival) packet arrival with
    ⟨_, hp⟩ | ⟨_, hp⟩ | ⟨_, _, _, hp⟩ | ⟨hlo, hhi, _, hp⟩ <;> rw [hp]
  · exact ⟨hn.highest_le, hn.played_le, hn.started_iff, hn.window⟩
  · exact ⟨hn.highest_le, hn.played_le, hn.started_iff, hn.window⟩
  · exact ⟨hn.highest_le, hn.played_le, hn.started_iff, hn.window⟩
  · exact hn.store arrival (by omega) (by omega) (noteArrival_highest packet arrival)

/-- Advancing the cursor keeps the invariant once the slot of the cursor is empty. -/
theorem Inv.advance {jb jb' : JitterBuffer P} (h : jb.Inv)
    (hcur : jb.cursor ≤ jb.highestFrameIndexSeen)
    (hhighest : jb'.highestFrameIndexSeen = jb.highestFrameIndexSeen)
    (hstarted : jb'.started = jb.started) (hbase : jb'.baseSequence = jb.baseSequence)
    (hplayed : jb'.framesPlayed = jb.framesPlayed + 1)
    (hslots : ∀ i, (jb'.slots.get i).occupied = true →
      jb'.slots.get i = jb.slots.get i ∧
        (jb.slots.get i).sequenceNumber ≠ jb.cursorSequence) : jb'.Inv := by
  have hhigh := h.highest_le
  have hnat := h.framesPlayed_succ hcur
  have hindex := h.frameIndex_cursor hcur
  rw [← hplayed] at hnat
  rw [h.cursor_eq] at hcur
  refine ⟨by omega, by omega, by rw [hstarted, hhighest]; exact h.started_iff, ?_⟩
  intro i hocc
  obtain ⟨heq, hne⟩ := hslots i hocc
  rw [heq] at hocc ⊢
  obtain ⟨hslot, hlo, hhi, hle⟩ := h.window i hocc
  have hidx : jb.frameIndex (jb.slots.get i).sequenceNumber ≠ jb.framesPlayed.toNat := by
    rw [← hindex]
    exact fun e => hne (frameIndex_injective jb e)
  simp only [frameIndex, hbase] at hlo hhi hle hidx ⊢
  exact ⟨hslot, by omega, by omega, by omega⟩

theorem holds_cursor_of_sequence {jb : JitterBuffer P} (h : jb.Inv) {i : Fin kCapacity}
    (hocc : (jb.slots.get i).occupied = true)
    (hseq : (jb.slots.get i).sequenceNumber = jb.cursorSequence) :
    jb.holds jb.cursorSequence = true := by
  obtain ⟨hslot, _⟩ := h.window i hocc
  rw [hseq] at hslot
  rw [holds_iff, hslot]
  exact ⟨hocc, hseq⟩

theorem Inv.pull {jb : JitterBuffer P} (h : jb.Inv) (now : U32) :
    (jb.tryPullDueFrame now).2.Inv := by
  rcases jb.tryPullDueFrame_cases now with ⟨_, hp⟩ | ⟨hdue, hh, hp⟩ | ⟨hdue, hh, hp⟩ <;> rw [hp]
  · exact h
  · -- the slot of the cursor is emptied
    obtain ⟨_, hcur, _⟩ := isDue_iff.mp hdue
    refine h.advance hcur rfl rfl rfl rfl fun i hocc => ?_
    simp only [afterReal, playReal, get_setAt] at hocc ⊢
    by_cases hi : slotIndex jb.cursorSequence = i
    · rw [if_pos hi] at hocc
      exact absurd hocc (by simp)
    · rw [if_neg hi] at hocc ⊢
      refine ⟨rfl, fun hseq => hi ?_⟩
      rw [← hseq]
      exact (h.window i hocc).1
  · -- no slot holds the frame of the cursor
    obtain ⟨_, hcur, _⟩ := isDue_iff.mp hdue
    refine h.advance hcur rfl rfl rfl rfl fun i hocc => ⟨rfl, fun hseq => ?_⟩
    rw [holds_cursor_of_sequence h hocc hseq] at hh
    exact absurd hh (by decide)

theorem Inv.next {jb : JitterBuffer P} (h : jb.Inv) (call : Call) : (jb.next call).Inv := by
  cases call with
  | push packet arrival => exact h.push packet arrival
  | pull now => exact h.pull now
  | markStreamEnded => exact ⟨h.highest_le, h.played_le, h.started_iff, h.window⟩

/-- Every reachable buffer satisfies the invariant. -/
theorem inv_run (options : Options) (junk : Vector (Vector U8 kSlotPayloadBytes) kCapacity)
    (calls : List Call) : Inv ((jitterSystem P options junk).run calls) :=
  DetSystem.invariant (M := jitterSystem P options junk) (inv_fresh options junk)
    (fun _ call h => h.next call) calls

/-! ## The options -/

theorem next_options (jb : JitterBuffer P) (call : Call) : (jb.next call).options = jb.options := by
  cases call with
  | push packet arrival =>
    obtain ⟨slots, counts, h⟩ := (jb.noteArrival packet arrival).place_frame packet arrival
    show (jb.push packet arrival).options = jb.options
    rw [push, h]
    rfl
  | pull now =>
    show (jb.tryPullDueFrame now).2.options = jb.options
    rcases jb.tryPullDueFrame_cases now with ⟨_, hp⟩ | ⟨_, _, hp⟩ | ⟨_, _, hp⟩ <;> rw [hp] <;> rfl
  | markStreamEnded => rfl

/-- The options are the ones given to the constructor. -/
theorem run_options (options : Options) (junk : Vector (Vector U8 kSlotPayloadBytes) kCapacity)
    (calls : List Call) :
    JitterBuffer.options ((jitterSystem P options junk).run calls) = options :=
  DetSystem.invariant (M := jitterSystem P options junk)
    (P := fun jb => JitterBuffer.options jb = options) rfl
    (fun jb call h => (next_options jb call).trans h) calls

end JitterBuffer

end RtpStreamer
