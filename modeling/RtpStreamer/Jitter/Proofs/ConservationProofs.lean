import RtpStreamer.Jitter.Proofs.InvariantProofs

/-!
# Packet and frame conservation

Every packet pushed is dropped as late, dropped as a duplicate, waiting in a slot or played; every
frame produced is real or concealed. The balance of the packets rests on the playout invariant: a
packet that were overwritten in its slot would be counted nowhere.
-/

namespace RtpStreamer

variable {P : Platform}

/-- The real frames played in a run: the pulls that found the packet of the cursor. -/
def realFramesPlayed (P : Platform) (options : Options)
    (junk : Vector (Vector U8 kSlotPayloadBytes) kCapacity) (calls : List Call) : Nat :=
  (((jitterSystem P options junk).observe JitterBuffer.playsReal).trace calls).count true

namespace JitterBuffer

theorem countP_set_occupied (slots : Vector Slot kCapacity) (i : Fin kCapacity) (slot : Slot) :
    (setAt slots i slot).countP (·.occupied) + (slots.get i).occupied.toNat =
      slots.countP (·.occupied) + slot.occupied.toNat := by
  have hget : slots.get i = slots[i.val] := rfl
  rw [setAt, Vector.countP_set, hget]
  cases h1 : (slots[i.val]).occupied with
  | true =>
    have hpos : 0 < slots.countP (·.occupied) :=
      Vector.countP_pos_iff.mpr ⟨_, Vector.getElem_mem i.isLt, h1⟩
    cases slot.occupied <;> simp <;> omega
  | false => cases slot.occupied <;> simp

/-! ## The balance -/

/-- The balance sheet of a buffer that has played `real` packets. -/
structure Balanced (jb : JitterBuffer P) (real : Nat) : Prop where
  packets : jb.counts.received =
    jb.counts.lateDropped + jb.counts.duplicate + real + jb.occupiedSlots
  frames : jb.framesPlayed.toNat = real + jb.counts.lost
  plc : jb.counts.lost = jb.counts.concealed

theorem balanced_fresh (options : Options)
    (junk : Vector (Vector U8 kSlotPayloadBytes) kCapacity) :
    (fresh P options junk).Balanced 0 where
  packets := by
    have h : (fresh P options junk).occupiedSlots = 0 := by
      simp [occupiedSlots, fresh, Vector.countP_map, Function.comp_def]
    rw [h]; rfl
  frames := rfl
  plc := rfl

/-- A push adds one packet to exactly one of the four places it can end up in. -/
theorem Balanced.push {jb : JitterBuffer P} {real : Nat} (h : jb.Balanced real) (hinv : jb.Inv)
    (packet : Packet) (arrival : U32) : (jb.push packet arrival).Balanced real := by
  obtain ⟨hpackets, hframes, hplc⟩ := h
  have hn := hinv.noteArrival packet arrival
  have hcur := hn.cursor_eq
  have hreceived : (jb.noteArrival packet arrival).counts.received = jb.counts.received + 1 := rfl
  have hlate : (jb.noteArrival packet arrival).counts.lateDropped = jb.counts.lateDropped := rfl
  have hdup : (jb.noteArrival packet arrival).counts.duplicate = jb.counts.duplicate := rfl
  have hocc : (jb.noteArrival packet arrival).occupiedSlots = jb.occupiedSlots := rfl
  unfold JitterBuffer.push
  rcases place_cases (jb.noteArrival packet arrival) packet arrival with
    ⟨_, hp⟩ | ⟨_, hp⟩ | ⟨_, _, _, hp⟩ | ⟨hlo, hhi, hh, hp⟩ <;> rw [hp]
  · refine ⟨?_, hframes, hplc⟩
    show jb.counts.received + 1 = jb.counts.lateDropped + 1 + jb.counts.duplicate + real + _
    rw [hpackets]
    show _ = _ + jb.occupiedSlots
    omega
  · refine ⟨?_, hframes, hplc⟩
    show jb.counts.received + 1 = jb.counts.lateDropped + 1 + jb.counts.duplicate + real + _
    rw [hpackets]
    show _ = _ + jb.occupiedSlots
    omega
  · refine ⟨?_, hframes, hplc⟩
    show jb.counts.received + 1 = jb.counts.lateDropped + (jb.counts.duplicate + 1) + real + _
    rw [hpackets]
    show _ = _ + jb.occupiedSlots
    omega
  · -- the slot was free, so one more slot is occupied
    refine ⟨?_, hframes, hplc⟩
    have hfree := hn.free_slot (by omega) (by omega) hh
    have hcount := countP_set_occupied (jb.noteArrival packet arrival).slots
      (slotIndex packet.sequenceNumber)
      (fillSlot ((jb.noteArrival packet arrival).slots.get (slotIndex packet.sequenceNumber))
        packet arrival)
    rw [hfree] at hcount
    have hone : ((jb.noteArrival packet arrival).store packet arrival).occupiedSlots =
        jb.occupiedSlots + 1 := hcount
    show jb.counts.received + 1 = jb.counts.lateDropped + jb.counts.duplicate + real + _
    rw [hpackets, hone]
    omega

/-- A pull moves one packet from its slot to the packets played, or conceals one frame. -/
theorem Balanced.pull {jb : JitterBuffer P} {real : Nat} (h : jb.Balanced real) (hinv : jb.Inv)
    (now : U32) : (jb.tryPullDueFrame now).2.Balanced
      (real + (jb.isDue now && jb.holds jb.cursorSequence).toNat) := by
  obtain ⟨hpackets, hframes, hplc⟩ := h
  have hadvance (hdue : jb.isDue now = true) :
      (jb.framesPlayed + 1).toNat = jb.framesPlayed.toNat + 1 :=
    hinv.framesPlayed_succ (isDue_iff.mp hdue).2.1
  rcases jb.tryPullDueFrame_cases now with ⟨hdue, hp⟩ | ⟨hdue, hh, hp⟩ | ⟨hdue, hh, hp⟩ <;>
    rw [hp, hdue]
  · exact ⟨hpackets, hframes, hplc⟩
  · -- the slot of the cursor was occupied and is emptied
    rw [hh]
    have hcount := countP_set_occupied jb.slots (slotIndex jb.cursorSequence)
      { jb.slots.get (slotIndex jb.cursorSequence) with occupied := false }
    rw [(holds_iff.mp hh).1] at hcount
    have hone : (jb.afterReal now).occupiedSlots + 1 = jb.occupiedSlots := hcount
    refine ⟨?_, ?_, hplc⟩
    · show jb.counts.received = jb.counts.lateDropped + jb.counts.duplicate + (real + 1) +
        (jb.afterReal now).occupiedSlots
      omega
    · show (jb.framesPlayed + 1).toNat = real + 1 + jb.counts.lost
      have := hadvance hdue
      omega
  · rw [hh]
    refine ⟨hpackets, ?_, ?_⟩
    · show (jb.framesPlayed + 1).toNat = real + 0 + (jb.counts.lost + 1)
      have := hadvance hdue
      omega
    · show jb.counts.lost + 1 = jb.counts.concealed + 1
      omega

theorem Balanced.next {jb : JitterBuffer P} {real : Nat} (h : jb.Balanced real) (hinv : jb.Inv)
    (call : Call) : (jb.next call).Balanced (real + (jb.playsReal call).toNat) := by
  cases call with
  | push packet arrival => exact h.push hinv packet arrival
  | pull now => exact h.pull hinv now
  | markStreamEnded => exact ⟨h.packets, h.frames, h.plc⟩

end JitterBuffer

theorem realFramesPlayed_snoc (options : Options)
    (junk : Vector (Vector U8 kSlotPayloadBytes) kCapacity) (calls : List Call) (call : Call) :
    realFramesPlayed P options junk (calls ++ [call]) = realFramesPlayed P options junk calls +
      (((jitterSystem P options junk).run calls).playsReal call).toNat := by
  unfold realFramesPlayed
  rw [DetSystem.trace_snoc, List.count_append, List.count_singleton]
  show _ + (if (((jitterSystem P options junk).run calls).playsReal call == true) = true then 1
    else 0) = _
  cases ((jitterSystem P options junk).run calls).playsReal call <;> rfl

namespace JitterBuffer

/-- Every reachable buffer is balanced. -/
theorem balanced_run (options : Options) (junk : Vector (Vector U8 kSlotPayloadBytes) kCapacity)
    (calls : List Call) : Balanced ((jitterSystem P options junk).run calls)
      (realFramesPlayed P options junk calls) := by
  refine DetSystem.run_induction (M := jitterSystem P options junk)
    (P := fun calls jb => Balanced jb (realFramesPlayed P options junk calls))
    (balanced_fresh options junk) ?_ calls
  intro calls call h
  rw [realFramesPlayed_snoc]
  exact h.next (inv_run options junk calls) call

/-- Past the frontier the window is empty. -/
theorem Inv.occupiedSlots_eq_zero {jb : JitterBuffer P} (h : jb.Inv)
    (hpast : jb.highestFrameIndexSeen < jb.framesPlayed.toNat) : jb.occupiedSlots = 0 := by
  refine Vector.countP_eq_zero.mpr fun slot hslot => ?_
  obtain ⟨i, hi, rfl⟩ := Vector.getElem_of_mem hslot
  intro hocc
  obtain ⟨_, hlo, _, hle⟩ := h.window ⟨i, hi⟩ hocc
  omega

/-- A finished buffer has played everything up to the frontier, so its window is empty. -/
theorem Inv.drained {jb : JitterBuffer P} (h : jb.Inv) (hs : jb.started = true)
    (hf : jb.finished = true) :
    (jb.framesPlayed.toNat : Int) = jb.highestFrameIndexSeen + 1 ∧ jb.occupiedSlots = 0 := by
  have hcur : jb.cursor > jb.highestFrameIndexSeen := by
    unfold finished at hf
    rw [hs] at hf
    cases he : jb.streamEnded <;> simp [he] at hf
    exact hf
  have hplayed := h.played_le
  rw [h.cursor_eq] at hcur
  exact ⟨by omega, h.occupiedSlots_eq_zero (by omega)⟩

/-- A push writes only slots that are not occupied. -/
theorem push_keeps_occupied {jb : JitterBuffer P} (h : jb.Inv) (packet : Packet) (arrival : U32)
    {i : Fin kCapacity} (hocc : (jb.slots.get i).occupied = true) :
    (jb.push packet arrival).slots.get i = jb.slots.get i := by
  have hn := h.noteArrival packet arrival
  have hcur := hn.cursor_eq
  unfold JitterBuffer.push
  rcases place_cases (jb.noteArrival packet arrival) packet arrival with
    ⟨_, hp⟩ | ⟨_, hp⟩ | ⟨_, _, _, hp⟩ | ⟨hlo, hhi, hh, hp⟩ <;> rw [hp]
  · rfl
  · rfl
  · rfl
  · have hfree := hn.free_slot (by omega) (by omega) hh
    have hne : slotIndex packet.sequenceNumber ≠ i := by
      rintro rfl
      rw [show (jb.noteArrival packet arrival).slots = jb.slots from rfl, hocc] at hfree
      exact absurd hfree (by decide)
    unfold JitterBuffer.store
    rw [get_setAt, if_neg hne]
    rfl

/-- Packet and frame conservation, in every reachable state. -/
theorem packet_conservation (P : Platform) (options : Options)
    (junk : Vector (Vector U8 kSlotPayloadBytes) kCapacity) (calls : List Call) :
    let jb : JitterBuffer P := (jitterSystem P options junk).run calls
    let real := realFramesPlayed P options junk calls
    ((∀ i, (jb.slots.get i).occupied = true →
        (jb.slots.get i).sequenceNumber.toNat % 32 = i.val ∧
        (jb.framesPlayed.toNat : Int) ≤ jb.frameIndex (jb.slots.get i).sequenceNumber ∧
        jb.frameIndex (jb.slots.get i).sequenceNumber < jb.framesPlayed.toNat + 32 ∧
        0 ≤ jb.frameIndex (jb.slots.get i).sequenceNumber ∧
        jb.frameIndex (jb.slots.get i).sequenceNumber ≤ jb.highestFrameIndexSeen) ∧
      ∀ packet arrival i, (jb.slots.get i).occupied = true →
        (jb.push packet arrival).slots.get i = jb.slots.get i) ∧
    jb.counts.received =
      jb.counts.lateDropped + jb.counts.duplicate + real + jb.occupiedSlots ∧
    (jb.framesPlayed.toNat = real + jb.counts.lost ∧ jb.counts.lost = jb.counts.concealed) ∧
    (jb.finished = true → jb.started = true →
      (∀ i, (jb.slots.get i).occupied = false) ∧
      jb.counts.received + jb.counts.lost =
        jb.counts.lateDropped + jb.counts.duplicate + jb.framesPlayed.toNat ∧
      (jb.framesPlayed.toNat : Int) = jb.highestFrameIndexSeen + 1) := by
  intro jb real
  have hinv : jb.Inv := inv_run options junk calls
  have hbal : jb.Balanced real := balanced_run options junk calls
  obtain ⟨hpackets, hframes, hplc⟩ := hbal
  refine ⟨⟨?_, ?_⟩, hpackets, ⟨hframes, hplc⟩, ?_⟩
  · intro i hocc
    obtain ⟨hslot, hlo, hhi, hle⟩ := hinv.window i hocc
    exact ⟨congrArg Fin.val hslot, hlo, hhi, by omega, hle⟩
  · intro packet arrival i hocc
    exact push_keeps_occupied hinv packet arrival hocc
  · intro hf hs
    obtain ⟨hlast, hempty⟩ := hinv.drained hs hf
    refine ⟨fun i => ?_, by omega, hlast⟩
    have := Vector.countP_eq_zero.mp hempty (jb.slots.get i) (Vector.getElem_mem i.isLt)
    simpa using this

end JitterBuffer

end RtpStreamer
