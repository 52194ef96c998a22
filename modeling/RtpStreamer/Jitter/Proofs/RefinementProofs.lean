import RtpStreamer.Jitter.Reference
import RtpStreamer.Jitter.Proofs.InvariantProofs
import RtpStreamer.Jitter.Proofs.SlotProofs

/-!
# The jitter buffer refines its reference

The simulation relates a ring to an unbounded map: from the cursor on, a sequence number has a slot
of its own exactly when the map has its frame index. Stale, duplicate, too-early and wrapped packets
cannot break the relation, because the playout invariant confines the occupied slots to the window.
-/

namespace RtpStreamer

variable {P : Platform}

namespace JitterBuffer

/-- The ring and the map agree from the cursor on. -/
def SlotsMatch (jb : JitterBuffer P) (accepted : Int → Option Packet) : Prop :=
  ∀ seq : U16, (jb.framesPlayed.toNat : Int) ≤ jb.frameIndex seq →
    match accepted (jb.frameIndex seq) with
    | some packet =>
      jb.holds seq = true ∧ ∃ arrival, Holds (jb.slots.get (slotIndex seq)) packet arrival
    | none => jb.holds seq = false

/-- The simulation relation between the buffer and the reference. -/
structure Matches (jb : JitterBuffer P) (r : Reference P) : Prop where
  inv : jb.Inv
  options : r.options = jb.options
  estimate : r.estimate = jb.estimate
  started : r.started = jb.started
  baseSequence : r.baseSequence = jb.baseSequence
  firstArrival : r.firstArrival = jb.firstArrivalSamples
  cursor : r.cursor = jb.framesPlayed.toNat
  highest : r.highest = jb.highestFrameIndexSeen
  ended : r.ended = jb.streamEnded
  lastReal : r.lastReal = if jb.haveLastRealFrame then some jb.lastRealFrame else none
  /-- The buffer stops counting concealed frames once it has faded to silence. -/
  concealments : jb.options.disablePlcFade = false → jb.haveLastRealFrame = true →
    jb.consecutiveConcealments = min r.sinceReal 3
  fresh : jb.started = false → ∀ index, r.accepted index = none
  slots : jb.SlotsMatch r.accepted

theorem matches_fresh (options : Options)
    (junk : Vector (Vector U8 kSlotPayloadBytes) kCapacity) :
    Matches (fresh P options junk) (referenceSystem P options).init where
  inv := inv_fresh options junk
  options := rfl
  estimate := rfl
  started := rfl
  baseSequence := rfl
  firstArrival := rfl
  cursor := rfl
  highest := rfl
  ended := rfl
  lastReal := rfl
  concealments := fun _ h => absurd h (by simp [JitterBuffer.fresh])
  fresh := fun _ _ => rfl
  slots := by
    intro seq _
    show holds _ seq = false
    simp [holds, fresh_not_occupied]

theorem Matches.indexOf {jb : JitterBuffer P} {r : Reference P} (h : Matches jb r)
    (packet : Packet) (arrival : U32) : r.indexOf packet.sequenceNumber =
      (jb.noteArrival packet arrival).frameIndex packet.sequenceNumber := by
  unfold Reference.indexOf frameIndex
  rw [h.started, h.baseSequence]
  rfl

/-! ## Pushes -/

/-- Noting an arrival moves the frontier and the estimate; no slot changes. -/
theorem Matches.noteArrival {jb : JitterBuffer P} {r : Reference P} (h : Matches jb r)
    (packet : Packet) (arrival : U32) :
    Matches (jb.noteArrival packet arrival)
      { r.push packet arrival with accepted := r.accepted } where
  inv := h.inv.noteArrival packet arrival
  options := h.options
  estimate := by
    show updateJitterEstimate r.options r.estimate _ _ = _
    rw [h.options, h.estimate]; rfl
  started := rfl
  baseSequence := by
    show (if r.started then r.baseSequence else _) = _
    rw [h.started, h.baseSequence]; rfl
  firstArrival := by
    show (if r.started then r.firstArrival else _) = _
    rw [h.started, h.firstArrival]; rfl
  cursor := h.cursor
  highest := by
    show max r.highest _ = _
    rw [h.highest, h.indexOf packet arrival]; rfl
  ended := h.ended
  lastReal := h.lastReal
  concealments := h.concealments
  fresh := fun hs => absurd hs (by simp [JitterBuffer.noteArrival])
  slots := by
    intro seq hle
    have hholds : (jb.noteArrival packet arrival).holds seq = jb.holds seq := rfl
    cases hs : jb.started with
    | true =>
      have hbase : (jb.noteArrival packet arrival).baseSequence = jb.baseSequence := by
        simp [JitterBuffer.noteArrival, baseAfter, hs]
      simp only [frameIndex, hbase] at hle ⊢
      exact h.slots seq hle
    | false =>
      -- before the first packet both the ring and the map are empty
      simp only [h.fresh hs]
      rw [hholds]
      simp [holds, h.inv.not_occupied hs]

theorem SlotsMatch.isSome {jb : JitterBuffer P} {accepted : Int → Option Packet}
    (h : jb.SlotsMatch accepted) (seq : U16)
    (hle : (jb.framesPlayed.toNat : Int) ≤ jb.frameIndex seq) :
    (accepted (jb.frameIndex seq)).isSome = jb.holds seq := by
  have hm := h seq hle
  cases hacc : accepted (jb.frameIndex seq) with
  | none => simp only [hacc] at hm; rw [hm]; rfl
  | some packet => simp only [hacc] at hm; rw [hm.1]; rfl

/-- Storing a packet of the window in its free slot is recording it in the map. -/
theorem SlotsMatch.store {jb : JitterBuffer P} {accepted : Int → Option Packet} (hinv : jb.Inv)
    (h : jb.SlotsMatch accepted) {packet : Packet} (arrival : U32)
    (hlo : (jb.framesPlayed.toNat : Int) ≤ jb.frameIndex packet.sequenceNumber)
    (hhi : jb.frameIndex packet.sequenceNumber < jb.framesPlayed.toNat + 32)
    (hh : jb.holds packet.sequenceNumber = false) :
    (jb.store packet arrival).SlotsMatch
      (Function.update accepted (jb.frameIndex packet.sequenceNumber) (some packet)) := by
  intro seq hle
  have hidx : (jb.store packet arrival).frameIndex seq = jb.frameIndex seq := rfl
  have hle : (jb.framesPlayed.toNat : Int) ≤ jb.frameIndex seq := hle
  rw [hidx]
  by_cases hseq : seq = packet.sequenceNumber
  · subst hseq
    simp only [Function.update_self, holds_iff, JitterBuffer.store, get_setAt]
    exact ⟨⟨rfl, rfl⟩, arrival, holds_fillSlot _ packet arrival⟩
  · have hne : jb.frameIndex seq ≠ jb.frameIndex packet.sequenceNumber :=
      fun e => hseq (frameIndex_injective jb e)
    simp only [Function.update_of_ne hne]
    by_cases hslot : slotIndex packet.sequenceNumber = slotIndex seq
    · -- the two share the slot, so the map cannot have had the other one
      have hfree := hinv.free_slot hlo hhi hh
      have hold : jb.holds seq = false := by
        rw [hslot] at hfree
        simp [holds, hfree]
      have hnone := h.isSome seq hle
      rw [hold, Option.isSome_eq_false_iff, Option.isNone_iff_eq_none] at hnone
      simp only [hnone]
      rw [← Bool.not_eq_true, holds_iff]
      simp only [JitterBuffer.store, get_setAt, if_pos hslot]
      rintro ⟨_, hsame⟩
      exact hseq hsame.symm
    · have hget : (jb.store packet arrival).slots.get (slotIndex seq) =
          jb.slots.get (slotIndex seq) := by
        simp only [JitterBuffer.store, get_setAt, if_neg hslot]
      have hholds : (jb.store packet arrival).holds seq = jb.holds seq := by
        simp only [holds, hget]
      rw [hholds, hget]
      exact h seq hle

/-- The reference accepts what the buffer stores. -/
theorem Matches.accepts_iff {jb : JitterBuffer P} {r : Reference P} (h : Matches jb r)
    (packet : Packet) (arrival : U32) :
    r.accepts (r.indexOf packet.sequenceNumber) = true ↔
      (jb.noteArrival packet arrival).cursor ≤
        (jb.noteArrival packet arrival).frameIndex packet.sequenceNumber ∧
      (jb.noteArrival packet arrival).frameIndex packet.sequenceNumber <
        (jb.noteArrival packet arrival).cursor + 32 ∧
      (jb.noteArrival packet arrival).holds packet.sequenceNumber = false := by
  have hn := h.noteArrival packet arrival
  have hcur := hn.inv.cursor_eq
  have hsome := hn.slots.isSome packet.sequenceNumber
  have hcursor : (r.cursor : Int) = (jb.noteArrival packet arrival).cursor := by
    rw [hcur]; exact congrArg Nat.cast hn.cursor
  unfold Reference.accepts
  rw [h.indexOf packet arrival, hcursor]
  constructor
  · intro hyes
    simp only [Bool.and_eq_true, decide_eq_true_eq] at hyes
    obtain ⟨⟨hlo, hhi⟩, hnone⟩ := hyes
    refine ⟨hlo, hhi, ?_⟩
    rw [← hsome (by omega)]
    simpa using hnone
  · rintro ⟨hlo, hhi, hh⟩
    rw [← hsome (by omega)] at hh
    simpa [hlo, hhi] using hh

theorem Matches.push {jb : JitterBuffer P} {r : Reference P} (h : Matches jb r) (packet : Packet)
    (arrival : U32) : Matches (jb.push packet arrival) (r.push packet arrival) := by
  have hn := h.noteArrival packet arrival
  have hcur := hn.inv.cursor_eq
  have hacc := h.accepts_iff packet arrival
  have haccepted : (r.push packet arrival).accepted =
      if r.accepts (r.indexOf packet.sequenceNumber) then
        Function.update r.accepted (r.indexOf packet.sequenceNumber) (some packet)
      else r.accepted := rfl
  have hskip (hno : r.accepts (r.indexOf packet.sequenceNumber) = false) :
      r.push packet arrival = { r.push packet arrival with accepted := r.accepted } := by
    unfold Reference.push
    simp only [hno]
    rfl
  have hrec (hyes : r.accepts (r.indexOf packet.sequenceNumber) = true) :
      (r.push packet arrival).accepted = Function.update r.accepted
        ((jb.noteArrival packet arrival).frameIndex packet.sequenceNumber) (some packet) := by
    rw [haccepted, if_pos hyes, h.indexOf packet arrival]
  unfold JitterBuffer.push
  rcases place_cases (jb.noteArrival packet arrival) packet arrival with
    ⟨hlt, hp⟩ | ⟨hge, hp⟩ | ⟨_, _, hh, hp⟩ | ⟨hlo, hhi, hh, hp⟩ <;> rw [hp]
  · rw [hskip (by rw [← Bool.not_eq_true, hacc]; omega)]
    exact ⟨hp ▸ h.inv.push packet arrival, hn.options, hn.estimate, hn.started, hn.baseSequence,
      hn.firstArrival, hn.cursor, hn.highest, hn.ended, hn.lastReal, hn.concealments, hn.fresh,
      hn.slots⟩
  · rw [hskip (by rw [← Bool.not_eq_true, hacc]; omega)]
    exact ⟨hp ▸ h.inv.push packet arrival, hn.options, hn.estimate, hn.started, hn.baseSequence,
      hn.firstArrival, hn.cursor, hn.highest, hn.ended, hn.lastReal, hn.concealments, hn.fresh,
      hn.slots⟩
  · rw [hskip (by rw [← Bool.not_eq_true, hacc, hh]; simp)]
    exact ⟨hp ▸ h.inv.push packet arrival, hn.options, hn.estimate, hn.started, hn.baseSequence,
      hn.firstArrival, hn.cursor, hn.highest, hn.ended, hn.lastReal, hn.concealments, hn.fresh,
      hn.slots⟩
  · refine ⟨hp ▸ h.inv.push packet arrival, hn.options, hn.estimate, hn.started,
      hn.baseSequence, hn.firstArrival, hn.cursor, hn.highest, hn.ended, hn.lastReal,
      hn.concealments, fun hs => absurd hs (by simp [JitterBuffer.store, JitterBuffer.noteArrival]),
      ?_⟩
    rw [hrec (hacc.mpr ⟨hlo, hhi, hh⟩)]
    exact hn.slots.store hn.inv arrival (by omega) (by omega) hh

/-! ## Pulls -/

theorem Matches.deadline {jb : JitterBuffer P} {r : Reference P} (h : Matches jb r) :
    r.deadline = jb.deadline := by
  unfold Reference.deadline JitterBuffer.deadline
  rw [h.firstArrival, h.estimate, h.cursor, BitVec.ofNat_mul, BitVec.ofNat_toNat,
    BitVec.setWidth_eq]
  rfl

theorem Matches.isDue {jb : JitterBuffer P} {r : Reference P} (h : Matches jb r) (now : U32) :
    r.isDue now = jb.isDue now := by
  rw [Bool.eq_iff_iff, isDue_iff, h.inv.cursor_eq]
  unfold Reference.isDue
  rw [h.started, h.cursor, h.highest, h.ended, h.deadline]
  simp [and_assoc]

/-- What the map has at the cursor when a frame is due. -/
theorem Matches.atCursor {jb : JitterBuffer P} {r : Reference P} (h : Matches jb r) {now : U32}
    (hdue : jb.isDue now = true) :
    (jb.holds jb.cursorSequence = true ∧ ∃ packet, r.accepted r.cursor = some packet ∧
      decodePayload P.byteOrder packet.payloadType packet.payload = jb.realFrame) ∨
    (jb.holds jb.cursorSequence = false ∧ r.accepted r.cursor = none) := by
  have hindex := h.inv.frameIndex_cursor (isDue_iff.mp hdue).2.1
  have hm := h.slots jb.cursorSequence (by omega)
  rw [hindex, ← h.cursor] at hm
  cases hacc : r.accepted r.cursor with
  | some packet =>
    simp only [hacc] at hm
    obtain ⟨hh, arrival, hslot⟩ := hm
    exact Or.inl ⟨hh, packet, rfl, (hslot.decodeSlot P.byteOrder).symm⟩
  | none =>
    simp only [hacc] at hm
    exact Or.inr ⟨hm, rfl⟩

theorem Matches.concealment {jb : JitterBuffer P} {r : Reference P} (h : Matches jb r) :
    Reference.concealment P r.options r.lastReal (r.sinceReal + 1) = jb.concealedFrame := by
  unfold Reference.concealment concealedFrame concealsSilence
  have hk := h.concealments
  have h3 : kMaxConsecutiveConcealments = 3 := rfl
  rw [h.lastReal, h.options, h3]
  cases hlast : jb.haveLastRealFrame with
  | false => simp
  | true =>
    cases hfade : jb.options.disablePlcFade with
    | true => simp
    | false =>
      have hk := hk hfade hlast
      by_cases hle : r.sinceReal + 1 ≤ 3
      · have heq : jb.consecutiveConcealments = r.sinceReal := by omega
        rw [heq]
        simp [hle]
        omega
      · have heq : jb.consecutiveConcealments = 3 := by omega
        rw [heq]
        simp [hle]

/-- A concealed frame is counted on both sides. -/
theorem Matches.concealments_succ {jb : JitterBuffer P} {r : Reference P} (h : Matches jb r)
    (hfade : jb.options.disablePlcFade = false) (hlast : jb.haveLastRealFrame = true) :
    jb.afterConcealed.consecutiveConcealments = min (r.sinceReal + 1) 3 := by
  have hk := h.concealments hfade hlast
  have h3 : kMaxConsecutiveConcealments = 3 := rfl
  show (if jb.concealsSilence then jb.consecutiveConcealments
    else jb.consecutiveConcealments + 1) = min (r.sinceReal + 1) 3
  unfold concealsSilence
  rw [hfade, hlast, h3]
  by_cases hle : jb.consecutiveConcealments ≥ 3
  · simp [hle]
    omega
  · simp [hle]
    omega

/-- Past the cursor a pull changes neither the ring nor the map. -/
theorem SlotsMatch.advance {jb jb' : JitterBuffer P} {accepted : Int → Option Packet}
    (h : jb.SlotsMatch accepted) (hplayed : jb'.framesPlayed.toNat = jb.framesPlayed.toNat + 1)
    (hbase : jb'.baseSequence = jb.baseSequence)
    (hslots : ∀ seq, (jb.framesPlayed.toNat : Int) < jb.frameIndex seq →
      jb'.holds seq = jb.holds seq ∧
        (jb.holds seq = true → jb'.slots.get (slotIndex seq) = jb.slots.get (slotIndex seq))) :
    jb'.SlotsMatch accepted := by
  intro seq hle
  have hidx : jb'.frameIndex seq = jb.frameIndex seq := by simp only [frameIndex, hbase]
  rw [hidx, hplayed] at hle
  obtain ⟨hholds, hget⟩ := hslots seq (by omega)
  have hm := h seq (by omega)
  rw [hidx]
  cases hacc : accepted (jb.frameIndex seq) with
  | none =>
    simp only [hacc] at hm ⊢
    rw [hholds, hm]
  | some packet =>
    simp only [hacc] at hm ⊢
    rw [hholds, hget hm.1]
    exact hm

/-- Emptying the slot of the cursor leaves the slots of later packets alone. -/
theorem afterReal_slots {jb : JitterBuffer P} (now : U32)
    (hh : jb.holds jb.cursorSequence = true) {seq : U16} (hne : seq ≠ jb.cursorSequence) :
    (jb.afterReal now).holds seq = jb.holds seq ∧
      (jb.holds seq = true →
        (jb.afterReal now).slots.get (slotIndex seq) = jb.slots.get (slotIndex seq)) := by
  by_cases hslot : slotIndex jb.cursorSequence = slotIndex seq
  · -- the slot holds the packet of the cursor, so it does not hold this one
    have hnot : jb.holds seq = false := by
      rw [← Bool.not_eq_true, holds_iff, ← hslot]
      rintro ⟨_, hseq⟩
      exact hne (hseq.symm.trans (holds_iff.mp hh).2)
    rw [hnot]
    refine ⟨?_, fun h => absurd h (by decide)⟩
    rw [← Bool.not_eq_true, holds_iff]
    simp only [afterReal, playReal, get_setAt, if_pos hslot]
    rintro ⟨hocc, _⟩
    exact absurd hocc (by decide)
  · have hget : (jb.afterReal now).slots.get (slotIndex seq) = jb.slots.get (slotIndex seq) := by
      simp only [afterReal, playReal, get_setAt, if_neg hslot]
    exact ⟨by simp only [holds, hget], fun _ => hget⟩

/-- At a pull the two do nothing, or both play the packet of the cursor, or both conceal. -/
theorem Matches.pull_cases {jb : JitterBuffer P} {r : Reference P} (h : Matches jb r) (now : U32) :
    (jb.tryPullDueFrame now = (none, jb) ∧ r.pull now = (none, r)) ∨
    (jb.isDue now = true ∧ jb.holds jb.cursorSequence = true ∧
      (r.accepted r.cursor).isSome = true ∧
      jb.tryPullDueFrame now = (some jb.realFrame, jb.afterReal now) ∧
      r.pull now = (some jb.realFrame,
        { r with cursor := r.cursor + 1, lastReal := some jb.realFrame, sinceReal := 0 })) ∨
    (jb.isDue now = true ∧ r.accepted r.cursor = none ∧
      jb.tryPullDueFrame now = (some jb.concealedFrame, jb.afterConcealed) ∧
      r.pull now = (some jb.concealedFrame,
        { r with cursor := r.cursor + 1, sinceReal := r.sinceReal + 1 })) := by
  unfold Reference.pull
  rw [h.isDue now]
  rcases jb.tryPullDueFrame_cases now with ⟨hdue, hp⟩ | ⟨hdue, hh, hp⟩ | ⟨hdue, hh, hp⟩ <;> rw [hdue]
  · exact Or.inl ⟨hp, rfl⟩
  · -- the packet of the cursor is played
    rcases h.atCursor hdue with ⟨_, packet, hacc, hframe⟩ | ⟨hno, _⟩
    · have hreal : r.frameAtCursor = jb.realFrame := by
        unfold Reference.frameAtCursor
        simp only [hacc, hframe]
      rw [hacc, hreal]
      exact Or.inr (Or.inl ⟨rfl, hh, rfl, hp, rfl⟩)
    · rw [hh] at hno
      cases hno
  · -- the map has nothing at the cursor either
    rcases h.atCursor hdue with ⟨hyes, _⟩ | ⟨_, hacc⟩
    · rw [hh] at hyes
      cases hyes
    · have hframe : r.frameAtCursor = jb.concealedFrame := by
        unfold Reference.frameAtCursor
        simp only [hacc]
        exact h.concealment
      rw [hacc, hframe]
      exact Or.inr (Or.inr ⟨rfl, rfl, hp, rfl⟩)

theorem Matches.pull {jb : JitterBuffer P} {r : Reference P} (h : Matches jb r) (now : U32) :
    (jb.tryPullDueFrame now).1 = (r.pull now).1 ∧
      Matches (jb.tryPullDueFrame now).2 (r.pull now).2 := by
  have hinv := h.inv.pull now
  have hnat (hdue : jb.isDue now = true) :
      (jb.framesPlayed + 1).toNat = jb.framesPlayed.toNat + 1 :=
    h.inv.framesPlayed_succ (isDue_iff.mp hdue).2.1
  rcases h.pull_cases now with ⟨hp, hr⟩ | ⟨hdue, hh, _, hp, hr⟩ | ⟨hdue, _, hp, hr⟩ <;>
    rw [hp] at hinv ⊢ <;> rw [hr]
  · exact ⟨rfl, h⟩
  · refine ⟨rfl, hinv, h.options, h.estimate, h.started, h.baseSequence, h.firstArrival, ?_,
      h.highest, h.ended, rfl, fun _ _ => rfl, h.fresh, ?_⟩
    · show r.cursor + 1 = (jb.framesPlayed + 1).toNat
      rw [hnat hdue, h.cursor]
    · refine h.slots.advance (hnat hdue) rfl fun seq hlt => afterReal_slots now hh ?_
      rintro rfl
      rw [h.inv.frameIndex_cursor (isDue_iff.mp hdue).2.1] at hlt
      omega
  · refine ⟨rfl, hinv, h.options, h.estimate, h.started, h.baseSequence, h.firstArrival, ?_,
      h.highest, h.ended, h.lastReal, fun hfade hlast => ?_, h.fresh,
      h.slots.advance (hnat hdue) rfl fun seq _ => ⟨rfl, fun _ => rfl⟩⟩
    · show r.cursor + 1 = (jb.framesPlayed + 1).toNat
      rw [hnat hdue, h.cursor]
    · exact h.concealments_succ hfade hlast

/-! ## Runs -/

theorem Matches.next {jb : JitterBuffer P} {r : Reference P} (h : Matches jb r) (call : Call) :
    Matches (jb.next call) (r.next call) := by
  cases call with
  | push packet arrival => exact h.push packet arrival
  | pull now => exact (h.pull now).2
  | markStreamEnded =>
    exact ⟨h.inv.next .markStreamEnded, h.options, h.estimate, h.started, h.baseSequence,
      h.firstArrival, h.cursor, h.highest, rfl, h.lastReal, h.concealments, h.fresh, h.slots⟩

theorem Matches.returned {jb : JitterBuffer P} {r : Reference P} (h : Matches jb r) (call : Call) :
    jb.returned call = r.returned call := by
  cases call with
  | push packet arrival => rfl
  | pull now => exact (h.pull now).1
  | markStreamEnded => rfl

/-- The buffer and the reference stay related along every run. -/
theorem matches_run (options : Options)
    (junk : Vector (Vector U8 kSlotPayloadBytes) kCapacity) (calls : List Call) :
    Matches ((jitterSystem P options junk).run calls) ((referenceSystem P options).run calls) := by
  have h := DetSystem.simulation (M := jitterSystem P options junk)
    (N := referenceSystem P options) (f := id) (R := Matches) (matches_fresh options junk)
    (fun _ _ call h => h.next call) calls
  rwa [List.map_id] at h

/-- **Refinement.** On every sequence of calls the ring of 32 slots returns the same booleans and the
same frames as the reference, whatever its payload memory held at the start. -/
theorem jitterBuffer_refines_reference (P : Platform) (options : Options)
    (junk : Vector (Vector U8 kSlotPayloadBytes) kCapacity) (calls : List Call) :
    (jitterSystem P options junk).trace calls = (referenceSystem P options).trace calls := by
  have h := DetSystem.trace_eq_of_simulation (M := jitterSystem P options junk)
    (N := referenceSystem P options) (f := id) (R := Matches) (matches_fresh options junk)
    (fun _ _ call h => h.next call) (fun _ _ call h => h.returned call) calls
  rwa [List.map_id] at h

end JitterBuffer

end RtpStreamer
