import RtpStreamer.Jitter.Tracked
import RtpStreamer.Jitter.Proofs.InvariantProofs
import RtpStreamer.Jitter.Proofs.SlotProofs

/-!
# Every real frame is the payload of one accepted push

The invariant says of each occupied slot which push stored its packet. A pull that plays a slot
therefore decodes the full payload of that push and of no other.
-/

namespace RtpStreamer

variable {P : Platform}

namespace JitterBuffer

theorem stores_iff (jb : JitterBuffer P) (packet : Packet) (arrival : U32) :
    jb.stores packet arrival = true ↔
      (jb.noteArrival packet arrival).cursor ≤
        (jb.noteArrival packet arrival).frameIndex packet.sequenceNumber ∧
      (jb.noteArrival packet arrival).frameIndex packet.sequenceNumber <
        (jb.noteArrival packet arrival).cursor + 32 ∧
      (jb.noteArrival packet arrival).holds packet.sequenceNumber = false := by
  have hcap : (kCapacity : Int) = 32 := rfl
  simp [stores, hcap, and_assoc]

/-- A push fills the slot of the packet when it stores it, and changes no slot otherwise. -/
theorem push_slots (jb : JitterBuffer P) (packet : Packet) (arrival : U32) :
    (jb.push packet arrival).slots =
      if jb.stores packet arrival then
        setAt jb.slots (slotIndex packet.sequenceNumber)
          (fillSlot (jb.slots.get (slotIndex packet.sequenceNumber)) packet arrival)
      else jb.slots := by
  unfold JitterBuffer.push
  have hiff := stores_iff jb packet arrival
  rcases place_cases (jb.noteArrival packet arrival) packet arrival with
    ⟨hlt, hp⟩ | ⟨hge, hp⟩ | ⟨_, _, hh, hp⟩ | ⟨hlo, hhi, hh, hp⟩ <;> rw [hp]
  · rw [if_neg (by rw [hiff]; omega)]; rfl
  · rw [if_neg (by rw [hiff]; omega)]; rfl
  · rw [if_neg (by rw [hiff, hh]; simp)]; rfl
  · rw [if_pos (hiff.mpr ⟨hlo, hhi, hh⟩)]; rfl

/-- A pull occupies no slot. -/
theorem pull_slots {jb : JitterBuffer P} (now : U32) {i : Fin kCapacity}
    (h : ((jb.tryPullDueFrame now).2.slots.get i).occupied = true) :
    (jb.tryPullDueFrame now).2.slots.get i = jb.slots.get i := by
  rcases jb.tryPullDueFrame_cases now with ⟨_, hp⟩ | ⟨_, _, hp⟩ | ⟨_, _, hp⟩ <;> rw [hp] at h ⊢
  · simp only [afterReal, playReal, get_setAt] at h ⊢
    by_cases hi : slotIndex jb.cursorSequence = i
    · rw [if_pos hi] at h
      exact absurd h (by simp)
    · rw [if_neg hi]
  · rfl

end JitterBuffer

open JitterBuffer

theorem tracked_buffer (options : Options)
    (junk : Vector (Vector U8 kSlotPayloadBytes) kCapacity) (calls : List Call) :
    ((trackedSystem P options junk).run calls).buffer = (jitterSystem P options junk).run calls ∧
      ((trackedSystem P options junk).run calls).calls = calls.length := by
  induction calls using List.reverseRecOn with
  | nil => exact ⟨rfl, rfl⟩
  | append_singleton calls call ih =>
    rw [DetSystem.run_snoc, DetSystem.run_snoc, List.length_append]
    exact ⟨congrArg (fun jb => JitterBuffer.next jb call) ih.1, congrArg (· + 1) ih.2⟩

/-- The bookkeeping changes nothing the buffer returns. -/
theorem tracked_trace (options : Options)
    (junk : Vector (Vector U8 kSlotPayloadBytes) kCapacity) (calls : List Call) :
    ((trackedSystem P options junk).trace calls).map Prod.fst =
      (jitterSystem P options junk).trace calls := by
  induction calls using List.reverseRecOn with
  | nil => rfl
  | append_singleton calls call ih =>
    rw [DetSystem.trace_snoc, DetSystem.trace_snoc, List.map_append, ih,
      ← (tracked_buffer options junk calls).1]
    rfl

/-- Every occupied slot holds the packet of the push that its bookkeeping names. -/
def Attributed (options : Options) (junk : Vector (Vector U8 kSlotPayloadBytes) kCapacity)
    (calls : List Call) (t : Tracked P) : Prop :=
  ∀ i, (t.buffer.slots.get i).occupied = true →
    ∃ packet arrival, calls[t.writer.get i]? = some (.push packet arrival) ∧
      Holds (t.buffer.slots.get i) packet arrival ∧
      JitterBuffer.stores ((jitterSystem P options junk).run (calls.take (t.writer.get i)))
        packet arrival = true

/-- A slot that a call leaves alone stays attributed to the same push. -/
theorem Attributed.keep {options : Options}
    {junk : Vector (Vector U8 kSlotPayloadBytes) kCapacity} {calls : List Call} {t : Tracked P}
    (h : Attributed options junk calls t) (call : Call) {i : Fin kCapacity}
    (hocc : (t.buffer.slots.get i).occupied = true) :
    ∃ packet arrival, (calls ++ [call])[t.writer.get i]? = some (.push packet arrival) ∧
      Holds (t.buffer.slots.get i) packet arrival ∧
      JitterBuffer.stores
        ((jitterSystem P options junk).run ((calls ++ [call]).take (t.writer.get i)))
        packet arrival = true := by
  obtain ⟨packet, arrival, hcall, hholds, hstores⟩ := h i hocc
  have hlt : t.writer.get i < calls.length := (List.getElem?_eq_some_iff.mp hcall).1
  refine ⟨packet, arrival, ?_, hholds, ?_⟩
  · rw [List.getElem?_append_left hlt, hcall]
  · rw [List.take_append_of_le_length (Nat.le_of_lt hlt)]
    exact hstores

theorem Attributed.next {options : Options}
    {junk : Vector (Vector U8 kSlotPayloadBytes) kCapacity} {calls : List Call} {t : Tracked P}
    (h : Attributed options junk calls t)
    (hbuffer : t.buffer = (jitterSystem P options junk).run calls) (hcalls : t.calls = calls.length)
    (call : Call) : Attributed options junk (calls ++ [call]) (t.next call) := by
  intro i hocc
  cases call with
  | push packet arrival =>
    have hslots : (t.next (.push packet arrival)).buffer.slots =
        (t.buffer.push packet arrival).slots := rfl
    have hwriter : (t.next (.push packet arrival)).writer =
        if t.buffer.stores packet arrival then
          setAt t.writer (slotIndex packet.sequenceNumber) t.calls else t.writer := rfl
    rw [hslots, push_slots] at hocc ⊢
    rw [hwriter]
    by_cases hs : t.buffer.stores packet arrival = true
    · rw [if_pos hs] at hocc ⊢
      rw [if_pos hs]
      simp only [get_setAt] at hocc ⊢
      by_cases hi : slotIndex packet.sequenceNumber = i
      · -- the slot just filled
        rw [if_pos hi, if_pos hi, hcalls]
        refine ⟨packet, arrival, ?_, holds_fillSlot _ packet arrival, ?_⟩
        · simp
        · rw [List.take_append_of_le_length le_rfl, List.take_length, ← hbuffer]
          exact hs
      · rw [if_neg hi] at hocc
        rw [if_neg hi, if_neg hi]
        exact h.keep _ hocc
    · rw [if_neg hs] at hocc ⊢
      rw [if_neg hs]
      exact h.keep _ hocc
  | pull now =>
    have hslot := pull_slots now hocc
    have hslot' : (t.next (.pull now)).buffer.slots.get i = t.buffer.slots.get i := hslot
    rw [hslot'] at hocc ⊢
    exact h.keep _ hocc
  | markStreamEnded => exact h.keep _ hocc

theorem attributed_run (options : Options)
    (junk : Vector (Vector U8 kSlotPayloadBytes) kCapacity) (calls : List Call) :
    Attributed options junk calls ((trackedSystem P options junk).run calls) := by
  refine DetSystem.run_induction (M := trackedSystem P options junk)
    (P := Attributed (P := P) options junk) ?_ ?_ calls
  · intro i hocc
    have hfresh := fresh_not_occupied (P := P) options junk i
    have hocc : ((fresh P options junk).slots.get i).occupied = true := hocc
    rw [hfresh] at hocc
    exact absurd hocc (by decide)
  · intro calls call h
    obtain ⟨hbuffer, hcalls⟩ := tracked_buffer (P := P) options junk calls
    exact h.next hbuffer hcalls call

/-- A pull names a push exactly when it is due and the slot of the cursor holds its packet. -/
theorem Tracked.source_pull (t : Tracked P) (now : U32) : t.source (.pull now) =
    if t.buffer.isDue now && t.buffer.holds t.buffer.cursorSequence then
      some (t.writer.get (slotIndex t.buffer.cursorSequence)) else none := rfl

theorem Tracked.source_eq_some {t : Tracked P} {call : Call} {n : Nat} (h : t.source call = some n) :
    ∃ now, call = .pull now ∧ t.buffer.isDue now = true ∧
      t.buffer.holds t.buffer.cursorSequence = true ∧
      t.writer.get (slotIndex t.buffer.cursorSequence) = n := by
  cases call with
  | pull now =>
    rw [Tracked.source_pull] at h
    by_cases hplays : (t.buffer.isDue now && t.buffer.holds t.buffer.cursorSequence) = true
    · rw [if_pos hplays] at h
      obtain ⟨hdue, hh⟩ := (Bool.and_eq_true _ _).mp hplays
      exact ⟨now, rfl, hdue, hh, Option.some.inj h⟩
    · rw [if_neg hplays] at h
      cases h
  | push packet arrival => cases h
  | markStreamEnded => cases h

/-- What a pull outputs when its bookkeeping names a push: the decoded payload of the packet that
push stored, whose frame index was the cursor. -/
theorem source_spec {options : Options} {junk : Vector (Vector U8 kSlotPayloadBytes) kCapacity}
    {calls : List Call} {call : Call} {n : Nat}
    (h : ((trackedSystem P options junk).run calls).source call = some n) :
    ∃ packet arrival, calls[n]? = some (.push packet arrival) ∧
      JitterBuffer.stores ((jitterSystem P options junk).run (calls.take n)) packet arrival
        = true ∧
      JitterBuffer.frameIndex ((jitterSystem P options junk).run calls) packet.sequenceNumber =
        (JitterBuffer.framesPlayed ((jitterSystem P options junk).run calls)).toNat ∧
      JitterBuffer.returned ((jitterSystem P options junk).run calls) call =
        some (decodePayload P.byteOrder packet.payloadType packet.payload) := by
  have hattr := attributed_run (P := P) options junk calls
  have hbuffer := (tracked_buffer (P := P) options junk calls).1
  have hinv := inv_run (P := P) options junk calls
  rw [← hbuffer] at hinv ⊢
  generalize (trackedSystem P options junk).run calls = t at h hattr hinv hbuffer
  obtain ⟨now, rfl, hdue, hh, rfl⟩ := Tracked.source_eq_some h
  obtain ⟨hocc, hseq⟩ := holds_iff.mp hh
  obtain ⟨packet, arrival, hcall, hholds, hstores⟩ := hattr _ hocc
  refine ⟨packet, arrival, hcall, hstores, ?_, ?_⟩
  · rw [← hholds.sequenceNumber, hseq]
    exact hinv.frameIndex_cursor (isDue_iff.mp hdue).2.1
  · show (t.buffer.tryPullDueFrame now).1 = _
    rw [tryPullDueFrame_of_holds hdue hh]
    exact congrArg some (hholds.decodeSlot P.byteOrder)

/-- A call among the first `m` calls. -/
theorem getElem?_of_take {calls : List Call} {call : Call} {m n : Nat}
    (h : (calls.take m)[n]? = some call) : n < m ∧ calls[n]? = some call := by
  have hlt := (List.getElem?_eq_some_iff.mp h).1
  rw [List.length_take] at hlt
  have hn : n < m := by omega
  rw [List.getElem?_take_of_lt hn] at h
  exact ⟨hn, h⟩

/-- What one call of a run returns, and the push that its bookkeeping names. -/
theorem tracked_getElem? {options : Options}
    {junk : Vector (Vector U8 kSlotPayloadBytes) kCapacity} {calls : List Call} {m : Nat}
    {out : Option Frame} {source : Option Nat}
    (h : ((trackedSystem P options junk).trace calls)[m]? = some (out, source)) :
    ∃ call, calls[m]? = some call ∧
      JitterBuffer.returned ((jitterSystem P options junk).run (calls.take m)) call = out ∧
      ((trackedSystem P options junk).run (calls.take m)).source call = source := by
  rw [DetSystem.trace_getElem?] at h
  obtain ⟨call, hcall, hobs⟩ := Option.map_eq_some_iff.mp h
  have hobs : (JitterBuffer.returned ((trackedSystem P options junk).run (calls.take m)).buffer call,
    Tracked.source ((trackedSystem P options junk).run (calls.take m)) call) =
      (out, source) := hobs
  obtain ⟨hout, hsource⟩ := Prod.mk.inj hobs
  rw [(tracked_buffer options junk _).1] at hout
  exact ⟨call, hcall, hout, hsource⟩

/-- What a pull of a run outputs when it outputs the payload of push `n`: that packet was stored, its
frame index is the cursor, and the frame is its decoded payload. -/
theorem outputs_spec {options : Options} {junk : Vector (Vector U8 kSlotPayloadBytes) kCapacity}
    {calls : List Call} {m n : Nat} {out : Frame}
    (h : ((trackedSystem P options junk).trace calls)[m]? = some (some out, some n)) :
    ∃ packet arrival, n < m ∧ calls[n]? = some (.push packet arrival) ∧
      JitterBuffer.stores ((jitterSystem P options junk).run (calls.take n)) packet arrival
        = true ∧
      JitterBuffer.frameIndex ((jitterSystem P options junk).run (calls.take m))
        packet.sequenceNumber =
        (JitterBuffer.framesPlayed ((jitterSystem P options junk).run (calls.take m))).toNat ∧
      out = decodePayload P.byteOrder packet.payloadType packet.payload := by
  obtain ⟨call, _, hout, hsource⟩ := tracked_getElem? h
  obtain ⟨packet, arrival, hcall, hstores, hindex, hframe⟩ := source_spec hsource
  rw [hframe] at hout
  obtain ⟨hn, hcall⟩ := getElem?_of_take hcall
  rw [List.take_take, Nat.min_eq_left (Nat.le_of_lt hn)] at hstores
  exact ⟨packet, arrival, hn, hcall, hstores, hindex, (Option.some.inj hout).symm⟩

/-- A call that names a push outputs its payload. -/
theorem outputs_of_source {options : Options}
    {junk : Vector (Vector U8 kSlotPayloadBytes) kCapacity} {calls : List Call} {m n : Nat}
    (h : ((trackedSystem P options junk).trace calls)[m]?.map Prod.snd = some (some n)) :
    Outputs P options junk calls m n := by
  obtain ⟨⟨out, source⟩, hm, hsource⟩ := Option.map_eq_some_iff.mp h
  obtain rfl : source = some n := hsource
  obtain ⟨call, _, hout, hsource⟩ := tracked_getElem? hm
  obtain ⟨packet, arrival, _, _, _, hframe⟩ := source_spec hsource
  rw [hframe] at hout
  rw [← hout] at hm
  exact ⟨_, hm⟩

end RtpStreamer
