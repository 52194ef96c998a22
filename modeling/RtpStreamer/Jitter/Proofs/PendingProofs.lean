import RtpStreamer.Jitter.Proofs.ConservationProofs
import RtpStreamer.Jitter.Proofs.TrackedProofs

/-!
# What becomes of a stored packet

A packet that a push stores stays in its slot until a pull plays it. So at the end of any run it has been
output or is still pending.
-/

namespace RtpStreamer

variable {P : Platform}

namespace JitterBuffer

/-- The slot of the packet still holds what push `n` has stored in it. -/
structure Pending (t : Tracked P) (n : Nat) (packet : Packet) (arrival : U32) : Prop where
  occupied : (t.buffer.slots.get (slotIndex packet.sequenceNumber)).occupied = true
  holds : Holds (t.buffer.slots.get (slotIndex packet.sequenceNumber)) packet arrival
  writer : t.writer.get (slotIndex packet.sequenceNumber) = n

theorem Pending.push {t : Tracked P} {n : Nat} {packet : Packet} {arrival : U32}
    (h : Pending t n packet arrival) (hinv : t.buffer.Inv) (packet' : Packet) (arrival' : U32) :
    Pending (t.next (.push packet' arrival')) n packet arrival := by
  have hkeep := push_keeps_occupied hinv packet' arrival' h.occupied
  have hslot : (t.next (.push packet' arrival')).buffer.slots.get (slotIndex packet.sequenceNumber) =
      t.buffer.slots.get (slotIndex packet.sequenceNumber) := hkeep
  refine ⟨?_, ?_, ?_⟩
  · rw [hslot]
    exact h.occupied
  · rw [hslot]
    exact h.holds
  · have hwriter : (t.next (.push packet' arrival')).writer =
        if t.buffer.stores packet' arrival' then
          setAt t.writer (slotIndex packet'.sequenceNumber) t.calls else t.writer := rfl
    rw [hwriter]
    by_cases hstores : t.buffer.stores packet' arrival' = true
    · -- a stored packet goes into a free slot
      obtain ⟨hlo, hhi, hh⟩ := (stores_iff _ _ _).mp hstores
      have hn := hinv.noteArrival packet' arrival'
      rw [hn.cursor_eq] at hlo hhi
      have hfree := hn.free_slot hlo hhi hh
      have hne : slotIndex packet'.sequenceNumber ≠ slotIndex packet.sequenceNumber := by
        intro heq
        rw [heq] at hfree
        exact absurd (h.occupied.symm.trans hfree) (by decide)
      rw [if_pos hstores, get_setAt, if_neg hne]
      exact h.writer
    · rw [if_neg hstores]
      exact h.writer

/-- A pull that does not play the packet leaves it pending. -/
theorem Pending.pull {t : Tracked P} {n : Nat} {packet : Packet} {arrival : U32}
    (h : Pending t n packet arrival) (now : U32) :
    t.source (.pull now) = some n ∨ Pending (t.next (.pull now)) n packet arrival := by
  rcases t.buffer.tryPullDueFrame_cases now with ⟨_, hp⟩ | ⟨hdue, hh, hp⟩ | ⟨_, _, hp⟩
  · have hbuffer : (t.next (.pull now)).buffer = t.buffer := congrArg Prod.snd hp
    exact Or.inr ⟨by rw [hbuffer]; exact h.occupied, by rw [hbuffer]; exact h.holds, h.writer⟩
  · have hbuffer : (t.next (.pull now)).buffer = t.buffer.afterReal now := congrArg Prod.snd hp
    by_cases hslot : slotIndex t.buffer.cursorSequence = slotIndex packet.sequenceNumber
    · left
      rw [Tracked.source_pull, hdue, hh, hslot, h.writer]
      rfl
    · have hkeep : (t.buffer.afterReal now).slots.get (slotIndex packet.sequenceNumber) =
          t.buffer.slots.get (slotIndex packet.sequenceNumber) := by
        simp only [afterReal, playReal, get_setAt, if_neg hslot]
      refine Or.inr ⟨?_, ?_, h.writer⟩
      · rw [hbuffer, hkeep]
        exact h.occupied
      · rw [hbuffer, hkeep]
        exact h.holds
  · have hbuffer : (t.next (.pull now)).buffer = t.buffer.afterConcealed := congrArg Prod.snd hp
    exact Or.inr ⟨by rw [hbuffer]; exact h.occupied, by rw [hbuffer]; exact h.holds, h.writer⟩

theorem Pending.markStreamEnded {t : Tracked P} {n : Nat} {packet : Packet} {arrival : U32}
    (h : Pending t n packet arrival) : Pending (t.next .markStreamEnded) n packet arrival :=
  ⟨h.occupied, h.holds, h.writer⟩

/-- When the cursor has come to a pending packet and its frame is due, a pull plays it. -/
theorem Pending.source {t : Tracked P} {n : Nat} {packet : Packet} {arrival now : U32}
    (h : Pending t n packet arrival) (hdue : t.buffer.isDue now = true)
    (hseq : t.buffer.cursorSequence = packet.sequenceNumber) : t.source (.pull now) = some n := by
  have hholds : t.buffer.holds packet.sequenceNumber = true :=
    holds_iff.mpr ⟨h.occupied, h.holds.sequenceNumber⟩
  rw [Tracked.source_pull, hdue, hseq, hholds]
  exact congrArg some h.writer

end JitterBuffer

open JitterBuffer

section Stored

variable {options : Options} {junk : Vector (Vector U8 kSlotPayloadBytes) kCapacity}

/-- A call of a run that one call ends. -/
theorem getElem?_snoc_cases {calls : List Call} {call call' : Call} {m : Nat}
    (h : (calls ++ [call])[m]? = some call') :
    calls[m]? = some call' ∧ (calls ++ [call]).take m = calls.take m ∨
      m = calls.length ∧ call' = call ∧ (calls ++ [call]).take m = calls := by
  rcases Nat.lt_or_ge m calls.length with hlt | hge
  · rw [List.getElem?_append_left hlt] at h
    exact Or.inl ⟨h, List.take_append_of_le_length (Nat.le_of_lt hlt)⟩
  · obtain rfl : m = calls.length := by
      have hlen := (List.getElem?_eq_some_iff.mp h).1
      rw [List.length_append, List.length_singleton] at hlen
      omega
    rw [List.getElem?_append_right le_rfl, Nat.sub_self] at h
    exact Or.inr ⟨rfl, (Option.some.inj h).symm, List.take_left⟩

/-- A packet that a push stores is pending behind the push. -/
theorem pending_of_stores {calls : List Call} {packet : Packet} {arrival : U32}
    (h : JitterBuffer.stores ((jitterSystem P options junk).run calls) packet arrival = true) :
    Pending ((trackedSystem P options junk).run (calls ++ [.push packet arrival])) calls.length packet
      arrival := by
  obtain ⟨hbuffer, hcalls⟩ := tracked_buffer (P := P) options junk calls
  rw [← hbuffer] at h
  rw [DetSystem.run_snoc]
  generalize (trackedSystem P options junk).run calls = t at h hcalls
  have hslots : (t.next (.push packet arrival)).buffer.slots = (t.buffer.push packet arrival).slots := rfl
  have hwriter : (t.next (.push packet arrival)).writer =
      if t.buffer.stores packet arrival then
        setAt t.writer (slotIndex packet.sequenceNumber) t.calls else t.writer := rfl
  have hslot : (t.next (.push packet arrival)).buffer.slots.get (slotIndex packet.sequenceNumber) =
      fillSlot (t.buffer.slots.get (slotIndex packet.sequenceNumber)) packet arrival := by
    rw [hslots, push_slots, if_pos h, get_setAt, if_pos rfl]
  refine ⟨?_, ?_, ?_⟩
  · show ((t.next (.push packet arrival)).buffer.slots.get _).occupied = true
    rw [hslot]
    rfl
  · show Holds ((t.next (.push packet arrival)).buffer.slots.get _) packet arrival
    rw [hslot]
    exact holds_fillSlot _ packet arrival
  · show (t.next (.push packet arrival)).writer.get _ = calls.length
    rw [hwriter, if_pos h, get_setAt, if_pos rfl, hcalls]

/-- What has been output stays so when the run goes on. -/
theorem Outputs.snoc {calls : List Call} {m n : Nat} (h : Outputs P options junk calls m n)
    (call : Call) : Outputs P options junk (calls ++ [call]) m n := by
  obtain ⟨frame, hframe⟩ := h
  refine ⟨frame, ?_⟩
  rw [DetSystem.trace_snoc, List.getElem?_append_left (List.getElem?_eq_some_iff.mp hframe).1]
  exact hframe

/-- A call whose bookkeeping names a push outputs its payload. -/
theorem outputs_of_getElem? {calls : List Call} {call : Call} {m n : Nat} (hcall : calls[m]? = some call)
    (h : ((trackedSystem P options junk).run (calls.take m)).source call = some n) :
    Outputs P options junk calls m n := by
  refine outputs_of_source ?_
  rw [DetSystem.trace_getElem?, hcall]
  exact congrArg some h

/-- The same for the last call of a run. -/
theorem outputs_snoc {calls : List Call} {call : Call} {n : Nat}
    (h : ((trackedSystem P options junk).run calls).source call = some n) :
    Outputs P options junk (calls ++ [call]) calls.length n := by
  refine outputs_of_getElem? List.getElem?_concat_length ?_
  rw [List.take_left]
  exact h

/-- A stored packet has been output or is pending. -/
theorem output_or_pending {calls : List Call} {n : Nat} {packet : Packet} {arrival : U32}
    (hcall : calls[n]? = some (.push packet arrival))
    (hstores : JitterBuffer.stores ((jitterSystem P options junk).run (calls.take n)) packet arrival =
      true) :
    (∃ m, Outputs P options junk calls m n) ∨
      Pending ((trackedSystem P options junk).run calls) n packet arrival := by
  induction calls using List.reverseRecOn with
  | nil => cases hcall
  | append_singleton calls call ih =>
    rcases getElem?_snoc_cases hcall with ⟨hcall, htake⟩ | ⟨rfl, rfl, htake⟩
    · rw [htake] at hstores
      rcases ih hcall hstores with ⟨m, hm⟩ | hpending
      · exact Or.inl ⟨m, hm.snoc call⟩
      · have hinv := inv_run (P := P) options junk calls
        rw [← (tracked_buffer options junk calls).1] at hinv
        rw [DetSystem.run_snoc]
        cases call with
        | push packet' arrival' => exact Or.inr (hpending.push hinv packet' arrival')
        | pull now =>
          rcases hpending.pull now with hsource | hpending
          · exact Or.inl ⟨calls.length, outputs_snoc hsource⟩
          · exact Or.inr hpending
        | markStreamEnded => exact Or.inr hpending.markStreamEnded
    · -- the push that stored it
      rw [htake] at hstores
      exact Or.inr (pending_of_stores hstores)

end Stored

end RtpStreamer
