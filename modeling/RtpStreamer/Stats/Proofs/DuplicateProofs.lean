import RtpStreamer.Stats.Proofs.SequenceTrackerProofs

/-!
# Copies of packets that arrived earlier

The tracker remembers only the highest number, so it tells a copy of that number from a late packet and
no other copy. One more packet that does not raise the highest number leaves a tracker that differs in
its counts alone, and the packets after it preserve that difference (`Ahead.onPacket`).
-/

namespace RtpStreamer

namespace SequenceTracker

/-- `sequenceNumber` was delivered before, within the last 32767 numbers below the highest. -/
def IsCopy (before : List U16) (sequenceNumber : U16) : Prop :=
  sequenceNumber ∈ before ∧
    -32767 ≤ (sequenceNumber - (track before).lastSequence).toInt ∧
    (sequenceNumber - (track before).lastSequence).toInt ≤ 0

instance (before : List U16) (sequenceNumber : U16) : Decidable (IsCopy before sequenceNumber) :=
  inferInstanceAs (Decidable (_ ∧ _ ∧ _))

/-! ## One more packet -/

/-- `ahead` has received one packet more than `tracker`, and counts `extra` more of them as
reordered. -/
structure Ahead (extra : Nat) (tracker ahead : SequenceTracker) : Prop where
  started : tracker.hasLast = true
  ahead_started : ahead.hasLast = true
  lastSequence : ahead.lastSequence = tracker.lastSequence
  received : ahead.counts.received = tracker.counts.received + 1
  gaps : ahead.counts.gaps = tracker.counts.gaps
  reordered : ahead.counts.reordered = tracker.counts.reordered + extra

section Ahead

variable {extra : Nat} {tracker ahead : SequenceTracker}

/-- The next packet finds the same highest number in both. -/
theorem Ahead.onPacket (h : Ahead extra tracker ahead) (sequenceNumber : U16) :
    Ahead extra (tracker.onPacket sequenceNumber) (ahead.onPacket sequenceNumber) := by
  obtain ⟨hhas, hlast, hreceived, hgaps, hreordered⟩ := onPacket_of_hasLast h.started sequenceNumber
  obtain ⟨hhas', hlast', hreceived', hgaps', hreordered'⟩ :=
    onPacket_of_hasLast h.ahead_started sequenceNumber
  rw [h.lastSequence] at hlast' hgaps' hreordered'
  refine ⟨hhas, hhas', hlast'.trans hlast.symm, ?_, ?_, ?_⟩
  · rw [hreceived', hreceived, h.received]
  · rw [hgaps', hgaps, h.gaps]
  · rw [hreordered', hreordered, h.reordered]
    omega

theorem Ahead.foldl (h : Ahead extra tracker ahead) (after : List U16) :
    Ahead extra (after.foldl SequenceTracker.onPacket tracker)
      (after.foldl SequenceTracker.onPacket ahead) := by
  induction after generalizing tracker ahead with
  | nil => exact h
  | cons sequenceNumber after ih => exact ih (h.onPacket sequenceNumber)

end Ahead

theorem onPacket_hasLast (tracker : SequenceTracker) (sequenceNumber : U16) :
    (tracker.onPacket sequenceNumber).hasLast = true := by
  cases h : tracker.hasLast with
  | false => simp [onPacket, h]
  | true => exact (onPacket_of_hasLast h sequenceNumber).1

theorem track_hasLast {before : List U16} (h : before ≠ []) : (track before).hasLast = true := by
  obtain ⟨sequenceNumbers, last, rfl⟩ := List.eq_nil_or_concat before |>.resolve_left h
  rw [track, List.concat_eq_append, List.foldl_append]
  exact onPacket_hasLast _ last

/-- A packet that does not raise the highest number counts as reordered unless it repeats it. -/
theorem ahead_of_not_above {tracker : SequenceTracker} (hhas : tracker.hasLast = true)
    {sequenceNumber : U16} (hle : (sequenceNumber - tracker.lastSequence).toInt ≤ 0) :
    Ahead (if sequenceNumber = tracker.lastSequence then 0 else 1) tracker
      (tracker.onPacket sequenceNumber) := by
  obtain ⟨hhas', hlast, hreceived, hgaps, hreordered⟩ := onPacket_of_hasLast hhas sequenceNumber
  refine ⟨hhas, hhas', ?_, hreceived, ?_, ?_⟩
  · rw [hlast, if_neg (by omega)]
  · rw [hgaps]
    omega
  · rw [hreordered]
    by_cases heq : sequenceNumber = tracker.lastSequence
    · rw [if_pos heq, heq, BitVec.sub_self]
      rfl
    · have hne : (sequenceNumber - tracker.lastSequence).toInt ≠ 0 := by
        intro hzero
        have hsub : sequenceNumber - tracker.lastSequence = 0 := BitVec.eq_of_toInt_eq hzero
        have hcancel := BitVec.sub_add_cancel sequenceNumber tracker.lastSequence
        rw [hsub] at hcancel
        exact heq (hcancel.symm.trans (BitVec.zero_add _))
      rw [if_neg heq, if_pos (by omega)]

/-- A run with a copy in it, beside the run without. -/
theorem ahead_of_copy {before : List U16} {sequenceNumber : U16} (h : IsCopy before sequenceNumber)
    (after : List U16) :
    Ahead (if sequenceNumber = (track before).lastSequence then 0 else 1) (track (before ++ after))
      (track (before ++ sequenceNumber :: after)) := by
  obtain ⟨hmem, -, hle⟩ := h
  have hstep := ahead_of_not_above (track_hasLast (List.ne_nil_of_mem hmem)) hle
  have hrun := hstep.foldl after
  simp only [track, List.foldl_append, List.foldl_cons]
  exact hrun

end SequenceTracker

/-! ## The jitter buffer -/

open SequenceTracker

theorem pushedSequences_append (calls more : List Call) :
    pushedSequences (calls ++ more) = pushedSequences calls ++ pushedSequences more := by
  simp only [pushedSequences, List.filterMap_append]

/-- **Copies and reordering.** One more copy of a number delivered before is received without counting as a
gap or as reordered exactly when it repeats the highest number seen until then, in the tracker and in the
jitter buffer. -/
theorem copy_not_reordered_iff (P : Platform) (options : Options)
    (junk : Vector (Vector U8 kSlotPayloadBytes) kCapacity) :
    (∀ (before after : List U16) (sequenceNumber : U16), IsCopy before sequenceNumber →
      let counts := (track (before ++ after)).counts
      let counts' := (track (before ++ sequenceNumber :: after)).counts
      (counts'.gaps = counts.gaps ∧ counts'.reordered = counts.reordered ∧
          counts'.received = counts.received + 1) ↔
        sequenceNumber = (track before).lastSequence) ∧
    ∀ (before after : List Call) (packet : Packet) (arrival : U32),
      IsCopy (pushedSequences before) packet.sequenceNumber →
        let start : JitterBuffer P := (jitterSystem P options junk).run before
        let jb : JitterBuffer P := (jitterSystem P options junk).run (before ++ after)
        let jb' : JitterBuffer P :=
          (jitterSystem P options junk).run (before ++ .push packet arrival :: after)
        (jb'.counts.reordered = jb.counts.reordered ∧
            jb'.counts.received = jb.counts.received + 1) ↔
          packet.sequenceNumber = start.highestSequenceSeen := by
  constructor
  · intro before after sequenceNumber hcopy counts counts'
    have hahead := ahead_of_copy hcopy after
    split_ifs at hahead with heq
    · exact iff_of_true ⟨hahead.gaps, hahead.reordered, hahead.received⟩ heq
    · refine iff_of_false (fun h => ?_) heq
      have hreordered : counts'.reordered = counts.reordered + 1 := hahead.reordered
      omega
  · intro before after packet arrival hcopy start jb jb'
    have hstart := JitterBuffer.agrees_run (P := P) options junk before
    have hjb := JitterBuffer.agrees_run (P := P) options junk (before ++ after)
    have hjb' := JitterBuffer.agrees_run (P := P) options junk (before ++ .push packet arrival :: after)
    have hahead := ahead_of_copy hcopy (pushedSequences after)
    rw [pushedSequences_append] at hjb hjb'
    rw [← hstart.highest] at hahead
    split_ifs at hahead with heq
    · refine iff_of_true ⟨?_, ?_⟩ heq
      · exact hjb'.reordered.trans (hahead.reordered.trans hjb.reordered.symm)
      · exact hjb'.received.trans (hahead.received.trans (congrArg (· + 1) hjb.received.symm))
    · refine iff_of_false (fun h => ?_) heq
      have hreordered : jb'.counts.reordered = jb.counts.reordered + 1 :=
        hjb'.reordered.trans (hahead.reordered.trans (congrArg (· + 1) hjb.reordered.symm))
      omega

/-- A packet that only its sequence number tells from others. -/
def barePacket (sequenceNumber : U16) : Packet where
  sequenceNumber := sequenceNumber
  rtpTimestamp := 0
  payloadType := 0
  payload := []

/-- A copy of the highest number, before a packet that raises it. -/
theorem copy_not_reordered_example :
    (track ([0, 1] ++ 1 :: [2])).counts.reordered = (track ([0, 1] ++ [2])).counts.reordered ∧
      (JitterBuffer.counts ((jitterSystem (exactPlatform .little fun _ sample => sample) {}
          (Vector.replicate _ (Vector.replicate _ 0))).run
            ([.push (barePacket 0) 0] ++ .push (barePacket 0) 9 :: []))).reordered =
        (JitterBuffer.counts ((jitterSystem (exactPlatform .little fun _ sample => sample) {}
          (Vector.replicate _ (Vector.replicate _ 0))).run
            ([.push (barePacket 0) 0] ++ []))).reordered := by
  obtain ⟨htracker, hbuffer⟩ := copy_not_reordered_iff (exactPlatform .little fun _ sample => sample) {}
    (Vector.replicate _ (Vector.replicate _ 0))
  refine ⟨((htracker [0, 1] [2] 1 (by decide)).mpr (by decide)).2.1, ?_⟩
  exact ((hbuffer [.push (barePacket 0) 0] [] (barePacket 0) 9 (by decide)).mpr
    (by decide +kernel)).1

/-- A copy of the packet before the newest counts as reordered, in the tracker and in the buffer, which
counts it as a duplicate as well. -/
theorem delayed_copy_reordered :
    IsCopy [0, 1] 0 ∧ (track [0, 1]).counts.reordered = 0 ∧
      (track [0, 1, 0]).counts.reordered = 1 ∧
      (JitterBuffer.counts ((jitterSystem (exactPlatform .little fun _ sample => sample) {}
        (Vector.replicate _ (Vector.replicate _ 0))).run
          [.push (barePacket 0) 0, .push (barePacket 1) 0])).reordered = 0 ∧
      (JitterBuffer.counts ((jitterSystem (exactPlatform .little fun _ sample => sample) {}
        (Vector.replicate _ (Vector.replicate _ 0))).run
          [.push (barePacket 0) 0, .push (barePacket 1) 0, .push (barePacket 0) 0])) =
        { received := 3, reordered := 1, duplicate := 1 } := by
  refine ⟨by decide, by decide, by decide, ?_, ?_⟩
  · decide +kernel
  · decide +kernel

end RtpStreamer
