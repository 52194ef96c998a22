import RtpStreamer.Jitter.JitterBuffer

/-!
# The sequence tracker

`stats::SequenceTracker` of `stats.cpp`, which keeps the last sequence number as 16 bits, and the
numbers it stands for: how the members of a sequence of unbounded integers lie with respect to the
maximum of the members before them. The counters are natural numbers, as in the jitter buffer.
-/

namespace RtpStreamer

structure SequenceCounts where
  received : Nat := 0
  /-- Missing sequence numbers inferred from forward jumps. -/
  gaps : Nat := 0
  /-- Packets that arrived behind the highest seen so far. -/
  reordered : Nat := 0
  deriving DecidableEq

structure SequenceTracker where
  hasLast : Bool := false
  lastSequence : U16 := 0
  counts : SequenceCounts := {}
  deriving DecidableEq

namespace SequenceTracker

def onPacket (tracker : SequenceTracker) (sequenceNumber : U16) : SequenceTracker :=
  let counts := { tracker.counts with received := tracker.counts.received + 1 }
  if !tracker.hasLast then
    { tracker with counts := counts, hasLast := true, lastSequence := sequenceNumber }
  else
    let delta : Int := (sequenceNumber - tracker.lastSequence).toInt
    if delta > 1 then
      { tracker with
        counts := { counts with gaps := counts.gaps + (delta - 1).toNat }
        lastSequence := sequenceNumber }
    else if delta = 1 then
      { tracker with counts := counts, lastSequence := sequenceNumber }
    else if delta = 0 then
      { tracker with counts := counts }
    else
      -- the highest number seen stays the reference point
      { tracker with counts := { counts with reordered := counts.reordered + 1 } }

/-- The tracker after the packets of the sequence numbers. -/
def track (sequenceNumbers : List U16) : SequenceTracker :=
  sequenceNumbers.foldl onPacket {}

end SequenceTracker

/-! ## Unbounded sequence numbers -/

/-- Each member of the list with the maximum of the members before it, where `m` is the maximum of what
came before the list. -/
def withEarlierMax {α : Type} [Max α] : (m : α) → List α → List (α × α)
  | _, [] => []
  | m, x :: xs => (x, m) :: withEarlierMax (max m x) xs

/-- The maximum of a nonempty list. -/
def maxOf {α : Type} [Max α] (x : α) (xs : List α) : α := xs.foldl max x

/-- Every member lies at most half of the 16-bit space from the maximum of the members before it. -/
def WithinHalf (x : Int) (xs : List Int) : Prop :=
  ∀ p ∈ withEarlierMax x xs, -32768 ≤ p.1 - p.2 ∧ p.1 - p.2 ≤ 32767

instance (x : Int) (xs : List Int) : Decidable (WithinHalf x xs) :=
  inferInstanceAs (Decidable (∀ p ∈ withEarlierMax x xs, _))

/-- The number of members after the first that exceed all earlier ones. -/
def newMaxima (x : Int) (xs : List Int) : Nat :=
  (withEarlierMax x xs).countP fun p => p.2 < p.1

/-- The number of members that are less than the maximum of the earlier ones. -/
def belowMaximum (x : Int) (xs : List Int) : Nat :=
  (withEarlierMax x xs).countP fun p => p.1 < p.2

/-- The 16-bit sequence number of an unbounded one. -/
def wireSequence (x : Int) : U16 := BitVec.ofInt 16 x

/-- The sequence numbers of the packets pushed by the calls. -/
def pushedSequences (calls : List Call) : List U16 :=
  calls.filterMap fun
    | .push packet _ => some packet.sequenceNumber
    | _ => none

end RtpStreamer
