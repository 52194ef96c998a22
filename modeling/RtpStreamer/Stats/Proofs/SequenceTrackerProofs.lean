import RtpStreamer.Jitter.Exact
import RtpStreamer.Jitter.Proofs.InvariantProofs
import RtpStreamer.Stats.SequenceTracker

/-!
# The sequence tracker refines unbounded integers

The tracker keeps the residue of the running maximum. As long as every number stays within half of the
16-bit space of that maximum, the signed difference it computes is the true difference, so its counters
are the ones of the unbounded numbers. The jitter buffer keeps the same residue beside its own frame
indices, whatever is pushed.
-/

namespace RtpStreamer

variable {P : Platform}

/-! ## Differences of residues -/

theorem toInt_wireSequence_sub {x m : Int} (hlo : -32768 ≤ x - m) (hhi : x - m ≤ 32767) :
    (wireSequence x - wireSequence m).toInt = x - m := by
  have hsub : (wireSequence x - wireSequence m).toInt = (x - m).bmod (2 ^ 16) := by
    simp only [wireSequence, BitVec.toInt_sub, BitVec.toInt_ofInt, Int.sub_bmod_bmod,
      Int.bmod_sub_bmod]
  rw [hsub]
  exact Int.bmod_eq_of_le (by omega) (by omega)

namespace SequenceTracker

/-! ## One packet -/

/-- What a packet does to a tracker that has seen one, in terms of its signed difference. -/
theorem onPacket_of_hasLast {tracker : SequenceTracker} (h : tracker.hasLast = true) (seq : U16) :
    (tracker.onPacket seq).hasLast = true ∧
    (tracker.onPacket seq).lastSequence =
      (if 0 < (seq - tracker.lastSequence).toInt then seq else tracker.lastSequence) ∧
    (tracker.onPacket seq).counts.received = tracker.counts.received + 1 ∧
    (tracker.onPacket seq).counts.gaps =
      tracker.counts.gaps + ((seq - tracker.lastSequence).toInt - 1).toNat ∧
    (tracker.onPacket seq).counts.reordered =
      tracker.counts.reordered + (if (seq - tracker.lastSequence).toInt < 0 then 1 else 0) := by
  unfold onPacket
  rw [h]
  generalize (seq - tracker.lastSequence).toInt = delta
  rcases lt_trichotomy delta 0 with hneg | rfl | hpos
  · have h1 : ¬ delta > 1 := by omega
    have h2 : ¬ delta = 1 := by omega
    have h3 : ¬ delta = 0 := by omega
    have h4 : (delta - 1).toNat = 0 := by omega
    simp [h1, h2, h3, h4, hneg, show ¬ 0 < delta by omega]
  · simp
  · by_cases h1 : delta > 1
    · simp [h1, hpos, show ¬ delta < 0 by omega]
    · obtain rfl : delta = 1 := by omega
      simp

/-! ## A whole sequence -/

/-- The maximum of the members before a list grows only at a member that exceeds it. -/
theorem foldl_counts (xs : List Int) :
    ∀ (m : Int) (tracker : SequenceTracker), tracker.hasLast = true →
      tracker.lastSequence = wireSequence m → WithinHalf m xs →
      let after := (xs.map wireSequence).foldl onPacket tracker
      after.counts.received = tracker.counts.received + xs.length ∧
        (after.counts.gaps : Int) = tracker.counts.gaps + (maxOf m xs - m - newMaxima m xs) ∧
        after.counts.reordered = tracker.counts.reordered + belowMaximum m xs := by
  induction xs with
  | nil =>
    intro m tracker _ _ _
    simp [maxOf, newMaxima, belowMaximum, withEarlierMax]
  | cons x xs ih =>
    intro m tracker hhas hlast hhalf
    have hx := hhalf (x, m) (List.mem_cons_self ..)
    have hxs : WithinHalf (max m x) xs := fun p hp => hhalf p (List.mem_cons_of_mem _ hp)
    obtain ⟨hhas', hlast', hreceived, hgaps, hreordered⟩ :=
      onPacket_of_hasLast hhas (wireSequence x)
    rw [hlast, toInt_wireSequence_sub hx.1 hx.2] at hlast' hgaps hreordered
    have hmax : (tracker.onPacket (wireSequence x)).lastSequence = wireSequence (max m x) := by
      rw [hlast']
      by_cases hlt : 0 < x - m
      · rw [if_pos hlt, max_eq_right (by omega)]
      · rw [if_neg hlt, max_eq_left (by omega)]
    obtain ⟨ih1, ih2, ih3⟩ := ih (max m x) _ hhas' hmax hxs
    have hnew : newMaxima m (x :: xs) = newMaxima (max m x) xs + if m < x then 1 else 0 := by
      simp [newMaxima, withEarlierMax, List.countP_cons]
    have hbelow : belowMaximum m (x :: xs) =
        belowMaximum (max m x) xs + if x < m then 1 else 0 := by
      simp [belowMaximum, withEarlierMax, List.countP_cons]
    have hfold : maxOf m (x :: xs) = maxOf (max m x) xs := rfl
    refine ⟨?_, ?_, ?_⟩
    · rw [List.length_cons]
      exact ih1.trans (by omega)
    · rw [hfold, hnew]
      refine ih2.trans ?_
      rw [hgaps]
      by_cases hlt : m < x
      · rw [if_pos hlt, max_eq_right (by omega)]
        omega
      · rw [if_neg hlt, max_eq_left (by omega)]
        omega
    · rw [hbelow]
      refine ih3.trans ?_
      rw [hreordered]
      by_cases hlt : x < m
      · rw [if_pos hlt, if_pos (by omega)]
        omega
      · rw [if_neg hlt, if_neg (by omega)]
        omega

/-- The counters of a whole sequence of unbounded numbers. -/
theorem track_counts (x : Int) (xs : List Int) (h : WithinHalf x xs) :
    let counts := (track ((x :: xs).map wireSequence)).counts
    counts.received = (x :: xs).length ∧
      (counts.gaps : Int) = maxOf x xs - x - newMaxima x xs ∧
      counts.reordered = belowMaximum x xs := by
  obtain ⟨hreceived, hgaps, hreordered⟩ :=
    foldl_counts xs x (onPacket {} (wireSequence x)) rfl rfl h
  refine ⟨hreceived.trans ?_, hgaps.trans ?_, hreordered.trans ?_⟩
  · show 0 + 1 + xs.length = (x :: xs).length
    rw [List.length_cons, Nat.zero_add, Nat.add_comm]
  · exact Int.zero_add _
  · exact Nat.zero_add _

end SequenceTracker

/-! ## The jitter buffer beside the tracker -/

namespace JitterBuffer

open SequenceTracker

/-- The buffer keeps the same highest sequence number as the tracker and counts the same events. -/
structure Agrees (jb : JitterBuffer P) (tracker : SequenceTracker) : Prop where
  have_iff : jb.haveHighest = tracker.hasLast
  highest : jb.highestSequenceSeen = tracker.lastSequence
  received : jb.counts.received = tracker.counts.received
  reordered : jb.counts.reordered = tracker.counts.reordered

/-- Where the packet is placed does not matter to the tracker. -/
theorem push_tracking (jb : JitterBuffer P) (packet : Packet) (arrival : U32) :
    (jb.push packet arrival).haveHighest = true ∧
    (jb.push packet arrival).highestSequenceSeen = jb.highestAfter packet.sequenceNumber ∧
    (jb.push packet arrival).counts.received = jb.counts.received + 1 ∧
    (jb.push packet arrival).counts.reordered =
      jb.counts.reordered + (jb.isReordered packet.sequenceNumber).toNat := by
  unfold push
  rcases (jb.noteArrival packet arrival).place_cases packet arrival with
    ⟨_, hp⟩ | ⟨_, hp⟩ | ⟨_, _, _, hp⟩ | ⟨_, _, _, hp⟩ <;> rw [hp]
  · exact ⟨rfl, rfl, rfl, rfl⟩
  · exact ⟨rfl, rfl, rfl, rfl⟩
  · exact ⟨rfl, rfl, rfl, rfl⟩
  · exact ⟨rfl, rfl, rfl, rfl⟩

theorem pull_received (jb : JitterBuffer P) (now : U32) :
    (jb.tryPullDueFrame now).2.counts.received = jb.counts.received := by
  rcases jb.tryPullDueFrame_cases now with ⟨_, hp⟩ | ⟨_, _, hp⟩ | ⟨_, _, hp⟩ <;> rw [hp] <;> rfl

theorem Agrees.push {jb : JitterBuffer P} {tracker : SequenceTracker} (h : jb.Agrees tracker)
    (packet : Packet) (arrival : U32) :
    (jb.push packet arrival).Agrees (tracker.onPacket packet.sequenceNumber) := by
  obtain ⟨hhave, hhighest, hreceived, hreordered⟩ := h
  obtain ⟨phave, phighest, preceived, preordered⟩ := jb.push_tracking packet arrival
  cases hhas : tracker.hasLast with
  | false =>
    -- the first packet fixes the reference point
    rw [hhas] at hhave
    have hafter : jb.highestAfter packet.sequenceNumber = packet.sequenceNumber := by
      simp [highestAfter, hhave]
    have hbehind : jb.isReordered packet.sequenceNumber = false := by simp [isReordered, hhave]
    rw [hafter] at phighest
    rw [hbehind, hreordered] at preordered
    rw [hreceived] at preceived
    have htracker : tracker.onPacket packet.sequenceNumber =
        ⟨true, packet.sequenceNumber,
          { tracker.counts with received := tracker.counts.received + 1 }⟩ := by
      simp [onPacket, hhas]
    rw [htracker]
    exact ⟨phave, phighest, preceived, preordered⟩
  | true =>
    rw [hhas] at hhave
    obtain ⟨thas, tlast, treceived, _, treordered⟩ :=
      onPacket_of_hasLast hhas packet.sequenceNumber
    refine ⟨phave.trans thas.symm, ?_, ?_, ?_⟩
    · rw [phighest, tlast, ← hhighest]
      simp [highestAfter, hhave]
    · rw [preceived, treceived, hreceived]
    · rw [preordered, treordered, hreordered, ← hhighest, isReordered, hhave, Bool.true_and]
      by_cases hlt : (packet.sequenceNumber - jb.highestSequenceSeen).toInt < 0
      · rw [decide_eq_true hlt, if_pos hlt]
        rfl
      · rw [decide_eq_false hlt, if_neg hlt]
        rfl

theorem Agrees.pull {jb : JitterBuffer P} {tracker : SequenceTracker} (h : jb.Agrees tracker)
    (now : U32) : (jb.tryPullDueFrame now).2.Agrees tracker := by
  rcases jb.tryPullDueFrame_cases now with ⟨_, hp⟩ | ⟨_, _, hp⟩ | ⟨_, _, hp⟩ <;> rw [hp]
  · exact h
  · exact ⟨h.have_iff, h.highest, h.received, h.reordered⟩
  · exact ⟨h.have_iff, h.highest, h.received, h.reordered⟩

theorem agrees_run (options : Options) (junk : Vector (Vector U8 kSlotPayloadBytes) kCapacity)
    (calls : List Call) :
    Agrees ((jitterSystem P options junk).run calls) (track (pushedSequences calls)) := by
  refine DetSystem.run_induction (M := jitterSystem P options junk)
    (P := fun calls jb => JitterBuffer.Agrees (P := P) jb (track (pushedSequences calls)))
    ⟨rfl, rfl, rfl, rfl⟩ ?_ calls
  intro calls call h
  have hsplit : pushedSequences (calls ++ [call]) =
      pushedSequences calls ++ pushedSequences [call] := by
    simp only [pushedSequences, List.filterMap_append]
  rw [hsplit, track, List.foldl_append]
  cases call with
  | push packet arrival => exact Agrees.push h packet arrival
  | pull now => exact Agrees.pull h now
  | markStreamEnded => exact ⟨h.have_iff, h.highest, h.received, h.reordered⟩

end JitterBuffer

open SequenceTracker

/-- **Sequence tracking.** Fed with the residues of unbounded numbers, the tracker counts what a count
over the unbounded numbers gives; and whatever is pushed into a jitter buffer, it has received and seen
out of order as many packets as a tracker fed with the same sequence numbers. -/
theorem sequence_tracking (P : Platform) (options : Options)
    (junk : Vector (Vector U8 kSlotPayloadBytes) kCapacity) :
    (∀ (x : Int) (xs : List Int), WithinHalf x xs →
      let counts := (track ((x :: xs).map wireSequence)).counts
      counts.received = (x :: xs).length ∧
        (counts.gaps : Int) = maxOf x xs - x - newMaxima x xs ∧
        counts.reordered = belowMaximum x xs) ∧
    ∀ calls : List Call,
      let jb : JitterBuffer P := (jitterSystem P options junk).run calls
      let tracker := track (pushedSequences calls)
      jb.counts.received = tracker.counts.received ∧
        jb.counts.reordered = tracker.counts.reordered := by
  refine ⟨track_counts, ?_⟩
  intro calls jb tracker
  have h := JitterBuffer.agrees_run (P := P) options junk calls
  exact ⟨h.received, h.reordered⟩

/-- A wrap at 65535 with one number missing and one packet from before the wrap. -/
theorem sequence_tracking_example :
    (track ([65534, 65535, 65537, 65533].map wireSequence)).counts =
      { received := 4, gaps := 1, reordered := 1 } := by
  obtain ⟨hreceived, hgaps, hreordered⟩ :=
    (sequence_tracking (exactPlatform .little fun _ sample => sample) {}
      (Vector.replicate _ (Vector.replicate _ 0))).1 65534 [65535, 65537, 65533] (by decide)
  generalize hcounts : (track ([65534, 65535, 65537, 65533].map wireSequence)).counts = counts at *
  obtain ⟨received, gaps, reordered⟩ := counts
  have hgaps : (gaps : Int) = 1 := hgaps
  obtain rfl : received = 4 := hreceived
  obtain rfl : gaps = 1 := by omega
  obtain rfl : reordered = 1 := hreordered
  rfl

end RtpStreamer
