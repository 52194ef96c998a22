import RtpStreamer.Jitter.Exact
import RtpStreamer.Jitter.Proofs.InvariantProofs
import Mathlib.Algebra.Order.Field.Rat
import Mathlib.Data.List.Chain
import Mathlib.Tactic.Linarith

/-!
# The timestamp origin and the jitter estimate

The estimate subtracts 32-bit timestamps as 64-bit integers, so it sees a jump of 2^32 where the
timestamp wraps. Two runs that differ in the origin of the timestamps are compared: they agree as long
as no two packets in a row are separated by the wrap in one run and not in the other.
-/

namespace RtpStreamer

/-- The call with the timestamp of its packet moved by `k`, modulo 2^32. -/
def Call.shiftTimestamp (k : U32) : Call → Call
  | .push packet arrival => .push { packet with rtpTimestamp := packet.rtpTimestamp + k } arrival
  | call => call

/-- The timestamp and the arrival clock of each push. -/
def arrivals (calls : List Call) : List (U32 × U32) :=
  calls.filterMap fun
    | .push packet arrival => some (packet.rtpTimestamp, arrival)
    | _ => none

/-- Whether adding `k` carries the timestamp past 2^32. -/
def Carries (k timestamp : U32) : Prop := 2 ^ 32 ≤ timestamp.toNat + k.toNat

instance (k timestamp : U32) : Decidable (Carries k timestamp) :=
  inferInstanceAs (Decidable (2 ^ 32 ≤ _))

/-- `D(i,j) = (Rj - Ri) - (Sj - Si)` as the source computes it, in 64-bit integers. -/
def interarrival (previous current : U32 × U32) : Int :=
  ((current.2.toNat : Int) - previous.2.toNat) - ((current.1.toNat : Int) - previous.1.toNat)

/-- Moving the timestamps by `k` does not change the distance of two packets in a row: both carry past
2^32 or neither does, or `D` is the half circle that the carry takes to its opposite. -/
def KeepsDistance (k : U32) (previous current : U32 × U32) : Prop :=
  (Carries k previous.1 ↔ Carries k current.1) ∨
  (¬ Carries k previous.1 ∧ Carries k current.1 ∧ interarrival previous current = -2 ^ 31) ∨
  (Carries k previous.1 ∧ ¬ Carries k current.1 ∧ interarrival previous current = 2 ^ 31)

/-- The shifted pair of timestamp and arrival. -/
def shiftPair (k : U32) (pair : U32 × U32) : U32 × U32 := (pair.1 + k, pair.2)

theorem keepsDistance_iff (k : U32) (previous current : U32 × U32) :
    KeepsDistance k previous current ↔
      (interarrival (shiftPair k previous) (shiftPair k current)).natAbs =
        (interarrival previous current).natAbs := by
  have h1 := previous.1.isLt
  have h2 := current.1.isLt
  have hk := k.isLt
  unfold KeepsDistance Carries interarrival shiftPair
  simp only [BitVec.toNat_add]
  constructor <;> intro h <;> omega

/-! ## What the estimate remembers -/

theorem arrivals_append (calls calls' : List Call) :
    arrivals (calls ++ calls') = arrivals calls ++ arrivals calls' := List.filterMap_append ..

theorem arrivals_append_push (calls : List Call) (packet : Packet) (arrival : U32) :
    arrivals (calls ++ [.push packet arrival]) =
      arrivals calls ++ [(packet.rtpTimestamp, arrival)] := arrivals_append calls _

theorem arrivals_shift (k : U32) (calls : List Call) :
    arrivals (calls.map (Call.shiftTimestamp k)) = (arrivals calls).map (shiftPair k) := by
  induction calls with
  | nil => rfl
  | cons call calls ih =>
    cases call with
    | push packet arrival =>
      show (packet.rtpTimestamp + k, arrival) :: arrivals (calls.map _) = _
      rw [ih]
      rfl
    | pull now => exact ih
    | markStreamEnded => exact ih

variable {P : Platform}

/-- The estimate remembers the last packet pushed. -/
def JitterEstimate.Remembers (est : JitterEstimate P) : Option (U32 × U32) → Prop
  | none => est.havePrevArrival = false
  | some (timestamp, arrival) => est.havePrevArrival = true ∧
    est.prevRtpTimestamp = timestamp ∧ est.prevArrivalSamples = arrival

namespace JitterBuffer

theorem pull_estimate (jb : JitterBuffer P) (now : U32) :
    (jb.tryPullDueFrame now).2.estimate = jb.estimate := by
  rcases jb.tryPullDueFrame_cases now with ⟨_, hp⟩ | ⟨_, _, hp⟩ | ⟨_, _, hp⟩ <;> rw [hp] <;> rfl

theorem remembers_next {jb : JitterBuffer P} {calls : List Call}
    (h : jb.estimate.Remembers (arrivals calls).getLast?) (call : Call) :
    (jb.next call).estimate.Remembers (arrivals (calls ++ [call])).getLast? := by
  cases call with
  | push packet arrival =>
    show (jb.push packet arrival).estimate.Remembers _
    rw [arrivals_append_push, List.getLast?_append, push_estimate]
    exact ⟨rfl, rfl, rfl⟩
  | pull now =>
    show (jb.tryPullDueFrame now).2.estimate.Remembers _
    rw [pull_estimate]
    simpa [arrivals] using h
  | markStreamEnded =>
    show jb.estimate.Remembers _
    simpa [arrivals] using h

theorem remembers_run (options : Options)
    (junk : Vector (Vector U8 kSlotPayloadBytes) kCapacity) (calls : List Call) :
    (estimate ((jitterSystem P options junk).run calls)).Remembers (arrivals calls).getLast? :=
  DetSystem.run_induction (M := jitterSystem P options junk)
    (P := fun calls jb => (estimate jb).Remembers (arrivals calls).getLast?) rfl
    (fun _ call h => remembers_next h call) calls

/-! ## The runs side by side -/

/-- The same buffer with another timestamp of the previous packet. -/
def withPrev (jb : JitterBuffer P) (timestamp : U32) : JitterBuffer P :=
  { jb with estimate := { jb.estimate with prevRtpTimestamp := timestamp } }

theorem place_withPrev (jb : JitterBuffer P) (packet : Packet) (arrival k timestamp : U32) :
    (jb.withPrev timestamp).place { packet with rtpTimestamp := packet.rtpTimestamp + k } arrival =
      (jb.place packet arrival).withPrev timestamp := by
  have hidx : (jb.withPrev timestamp).frameIndex packet.sequenceNumber =
      jb.frameIndex packet.sequenceNumber := rfl
  have hcur : (jb.withPrev timestamp).cursor = jb.cursor := rfl
  have hholds : (jb.withPrev timestamp).holds packet.sequenceNumber =
      jb.holds packet.sequenceNumber := rfl
  unfold place
  simp only [hidx, hcur, hholds]
  split_ifs <;> rfl

theorem pull_withPrev (jb : JitterBuffer P) (now timestamp : U32) :
    (jb.withPrev timestamp).tryPullDueFrame now =
      ((jb.tryPullDueFrame now).1, (jb.tryPullDueFrame now).2.withPrev timestamp) := by
  have hdue : (jb.withPrev timestamp).isDue now = jb.isDue now := rfl
  have hholds : (jb.withPrev timestamp).holds (jb.withPrev timestamp).cursorSequence =
      jb.holds jb.cursorSequence := rfl
  rcases jb.tryPullDueFrame_cases now with ⟨hd, hp⟩ | ⟨hd, hh, hp⟩ | ⟨hd, hh, hp⟩ <;> rw [hp]
  · rw [tryPullDueFrame_of_not_due (hdue.trans hd)]
  · rw [tryPullDueFrame_of_holds (hdue.trans hd) (hholds.trans hh)]
    rfl
  · rw [tryPullDueFrame_of_not_holds (hdue.trans hd) (hholds.trans hh)]
    rfl

end JitterBuffer

variable {order : ByteOrder} {fade : Nat → I16 → I16}

/-- The estimate sees only the absolute value of `D`. -/
theorem updateJitterEstimate_shift (options : Options) (est : JitterEstimate (exactPlatform order fade))
    (rtpTimestamp arrival k timestamp : U32)
    (h : est.havePrevArrival = true →
      (interarrival (timestamp, est.prevArrivalSamples) (rtpTimestamp + k, arrival)).natAbs =
        (interarrival (est.prevRtpTimestamp, est.prevArrivalSamples)
          (rtpTimestamp, arrival)).natAbs) :
    updateJitterEstimate options { est with prevRtpTimestamp := timestamp } (rtpTimestamp + k)
        arrival =
      { updateJitterEstimate options est rtpTimestamp arrival with
        prevRtpTimestamp := rtpTimestamp + k } := by
  unfold updateJitterEstimate
  cases hp : est.havePrevArrival with
  | false => rfl
  | true =>
    have hacc : accumulateExact est.jitterEstimateSamples
        (interarrival (timestamp, est.prevArrivalSamples) (rtpTimestamp + k, arrival)) =
        accumulateExact est.jitterEstimateSamples
          (interarrival (est.prevRtpTimestamp, est.prevArrivalSamples) (rtpTimestamp, arrival)) := by
      unfold accumulateExact
      rw [h hp]
    unfold interarrival at hacc
    simp only [exactPlatform, hacc, reduceIte]

namespace JitterBuffer

/-- A push into the shifted buffer, when it keeps the distance to the previous packet. -/
theorem push_withPrev (jb : JitterBuffer (exactPlatform order fade)) (packet : Packet)
    (arrival k timestamp : U32)
    (h : jb.estimate.havePrevArrival = true →
      (interarrival (timestamp, jb.estimate.prevArrivalSamples)
        (packet.rtpTimestamp + k, arrival)).natAbs =
        (interarrival (jb.estimate.prevRtpTimestamp, jb.estimate.prevArrivalSamples)
          (packet.rtpTimestamp, arrival)).natAbs) :
    (jb.withPrev timestamp).push { packet with rtpTimestamp := packet.rtpTimestamp + k } arrival =
      (jb.push packet arrival).withPrev (packet.rtpTimestamp + k) := by
  have hnote : (jb.withPrev timestamp).noteArrival
      { packet with rtpTimestamp := packet.rtpTimestamp + k } arrival =
      (jb.noteArrival packet arrival).withPrev (packet.rtpTimestamp + k) := by
    unfold noteArrival withPrev
    simp only [updateJitterEstimate_shift jb.options jb.estimate packet.rtpTimestamp arrival k
      timestamp h]
    rfl
  unfold push
  rw [hnote, place_withPrev]

/-- The second buffer is the first one with the previous timestamp shifted. -/
def Shifted (k : U32) (jb jb' : JitterBuffer P) : Prop :=
  ∃ timestamp, jb' = jb.withPrev timestamp ∧
    (jb.estimate.havePrevArrival = true → timestamp = jb.estimate.prevRtpTimestamp + k)

theorem Shifted.next {k : U32} {jb jb' : JitterBuffer (exactPlatform order fade)}
    (h : Shifted k jb jb') {calls : List Call}
    (hprev : jb.estimate.Remembers (arrivals calls).getLast?) {call : Call}
    (hchain : (arrivals (calls ++ [call])).IsChain (KeepsDistance k)) :
    Shifted k (jb.next call) (jb'.next (call.shiftTimestamp k)) := by
  obtain ⟨timestamp, rfl, hts⟩ := h
  cases call with
  | push packet arrival =>
    refine ⟨packet.rtpTimestamp + k, push_withPrev jb packet arrival k timestamp ?_, fun _ => ?_⟩
    · -- the chain condition speaks about the packet that the estimate remembers
      intro hhave
      rw [hts hhave]
      rw [arrivals_append_push, List.isChain_append] at hchain
      obtain ⟨_, _, hlink⟩ := hchain
      cases hlast : (arrivals calls).getLast? with
      | none =>
        rw [hlast] at hprev
        rw [show jb.estimate.havePrevArrival = false from hprev] at hhave
        exact absurd hhave (by decide)
      | some pair =>
        rw [hlast] at hprev hlink
        obtain ⟨_, hpt, hpa⟩ := hprev
        have hkeep := hlink pair rfl (packet.rtpTimestamp, arrival) rfl
        rw [keepsDistance_iff] at hkeep
        rw [hpt, hpa]
        exact hkeep
    · show packet.rtpTimestamp + k = (jb.push packet arrival).estimate.prevRtpTimestamp + k
      rw [push_estimate]
      rfl
  | pull now =>
    refine ⟨timestamp, ?_, ?_⟩
    · show ((jb.withPrev timestamp).tryPullDueFrame now).2 = _
      rw [pull_withPrev]
      rfl
    · show (jb.tryPullDueFrame now).2.estimate.havePrevArrival = true →
        timestamp = (jb.tryPullDueFrame now).2.estimate.prevRtpTimestamp + k
      rw [pull_estimate]
      exact hts
  | markStreamEnded => exact ⟨timestamp, rfl, hts⟩

theorem Shifted.returned {k : U32} {jb jb' : JitterBuffer P} (h : Shifted k jb jb') (call : Call) :
    jb'.returned (call.shiftTimestamp k) = jb.returned call := by
  obtain ⟨timestamp, rfl, _⟩ := h
  cases call with
  | push packet arrival => rfl
  | pull now =>
    show ((jb.withPrev timestamp).tryPullDueFrame now).1 = (jb.tryPullDueFrame now).1
    rw [pull_withPrev]
  | markStreamEnded => rfl

/-- While the chain condition holds, the shifted run stays a shifted copy of the run. -/
theorem shifted_run (options : Options) (junk : Vector (Vector U8 kSlotPayloadBytes) kCapacity)
    (k : U32) (calls : List Call) (h : (arrivals calls).IsChain (KeepsDistance k)) :
    Shifted k ((jitterSystem (exactPlatform order fade) options junk).run calls)
      ((jitterSystem (exactPlatform order fade) options junk).run
        (calls.map (Call.shiftTimestamp k))) := by
  induction calls using List.reverseRecOn with
  | nil => exact ⟨0, rfl, fun h => absurd h Bool.false_ne_true⟩
  | append_singleton calls call ih =>
    have hcalls : (arrivals calls).IsChain (KeepsDistance k) := by
      rw [arrivals_append] at h
      exact h.left_of_append
    rw [List.map_append, List.map_singleton, DetSystem.run_snoc, DetSystem.run_snoc]
    exact (ih hcalls).next (remembers_run options junk calls) h

/-! ## The estimate tells whether the distances were kept -/

theorem accumulateExact_inj {jitter : Rat} {d d' : Int} :
    accumulateExact jitter d = accumulateExact jitter d' ↔ d.natAbs = d'.natAbs := by
  unfold accumulateExact
  constructor
  · intro h
    have hcast : (d.natAbs : Rat) = d'.natAbs := by linarith
    exact_mod_cast hcast
  · intro h
    rw [h]

/-- The estimate after a push that was not the first. -/
theorem push_jitterEstimate (jb : JitterBuffer (exactPlatform order fade)) (packet : Packet)
    (arrival : U32) {pair : U32 × U32} (h : jb.estimate.Remembers (some pair)) :
    (jb.push packet arrival).estimate.jitterEstimateSamples =
      accumulateExact jb.estimate.jitterEstimateSamples
        (interarrival pair (packet.rtpTimestamp, arrival)) := by
  obtain ⟨hhave, hts, harr⟩ := h
  rw [push_estimate]
  unfold updateJitterEstimate
  simp only [hhave, hts, harr, reduceIte]
  rfl

/-- The estimates of two runs agree after a push exactly when the push keeps its distance. -/
theorem push_jitterEstimate_eq_iff {jb jb' : JitterBuffer (exactPlatform order fade)} {k : U32}
    {pair : U32 × U32} (packet : Packet) (arrival : U32)
    (h : jb.estimate.Remembers (some pair)) (h' : jb'.estimate.Remembers (some (shiftPair k pair)))
    (heq : jb'.estimate.jitterEstimateSamples = jb.estimate.jitterEstimateSamples) :
    (jb'.push { packet with rtpTimestamp := packet.rtpTimestamp + k }
        arrival).estimate.jitterEstimateSamples =
      (jb.push packet arrival).estimate.jitterEstimateSamples ↔
      KeepsDistance k pair (packet.rtpTimestamp, arrival) := by
  rw [push_jitterEstimate jb packet arrival h, push_jitterEstimate jb' _ arrival h', heq]
  exact accumulateExact_inj.trans (keepsDistance_iff k pair (packet.rtpTimestamp, arrival)).symm

/-- If the estimates of the two runs agree after every call, every distance was kept. -/
theorem isChain_of_estimate_eq (options : Options)
    (junk : Vector (Vector U8 kSlotPayloadBytes) kCapacity) (k : U32) (calls : List Call)
    (h : ∀ before, before <+: calls →
      (estimate ((jitterSystem (exactPlatform order fade) options junk).run
        (before.map (Call.shiftTimestamp k)))).jitterEstimateSamples =
      (estimate ((jitterSystem (exactPlatform order fade) options junk).run
        before)).jitterEstimateSamples) :
    (arrivals calls).IsChain (KeepsDistance k) := by
  induction calls using List.reverseRecOn with
  | nil => exact List.IsChain.nil
  | append_singleton calls call ih =>
    have hcalls := ih fun before hb => h before (hb.trans (List.prefix_append _ _))
    cases call with
    | push packet arrival =>
      rw [arrivals_append_push, List.isChain_append]
      refine ⟨hcalls, List.IsChain.singleton _, ?_⟩
      intro pair hlast current hcurrent
      obtain rfl : (packet.rtpTimestamp, arrival) = current := Option.some.inj hcurrent
      have hlast : (arrivals calls).getLast? = some pair := hlast
      have hprev := remembers_run (P := exactPlatform order fade) options junk calls
      have hprev' := remembers_run (P := exactPlatform order fade) options junk
        (calls.map (Call.shiftTimestamp k))
      rw [arrivals_shift, List.getLast?_map, hlast] at hprev'
      rw [hlast] at hprev
      have hbefore := h calls (List.prefix_append _ _)
      have hafter := h (calls ++ [.push packet arrival]) (List.prefix_refl _)
      rw [List.map_append, List.map_singleton, DetSystem.run_snoc, DetSystem.run_snoc] at hafter
      exact (push_jitterEstimate_eq_iff packet arrival hprev hprev' hbefore).mp hafter
    | pull now => simpa [arrivals] using hcalls
    | markStreamEnded => simpa [arrivals] using hcalls

end JitterBuffer

open JitterBuffer

/-- What a user of the buffer can see of its state. -/
def SameObservables (jb jb' : JitterBuffer P) : Prop :=
  jb'.estimate.targetDepthMs = jb.estimate.targetDepthMs ∧
    jb'.estimate.targetDepthHistoryMs = jb.estimate.targetDepthHistoryMs ∧
    jb'.counts = jb.counts ∧ jb'.latencySamplesMs = jb.latencySamplesMs ∧
    jb'.finished = jb.finished

/-- **Independence from the timestamp origin.** If every two packets in a row keep their distance, the
shifted run returns the same frames and shows the same depth, history and counters in every state. The
jitter estimates of the two runs agree throughout exactly when the distances are kept. -/
theorem timestamp_origin_independence (order : ByteOrder) (fade : Nat → I16 → I16)
    (options : Options) (junk : Vector (Vector U8 kSlotPayloadBytes) kCapacity) (k : U32)
    (calls : List Call) :
    let M := jitterSystem (exactPlatform order fade) options junk
    ((arrivals calls).IsChain (KeepsDistance k) →
      M.trace (calls.map (Call.shiftTimestamp k)) = M.trace calls ∧
      ∀ before, before <+: calls → SameObservables (P := exactPlatform order fade) (M.run before)
        (M.run (before.map (Call.shiftTimestamp k)))) ∧
    ((arrivals calls).IsChain (KeepsDistance k) ↔
      ∀ before, before <+: calls →
        (estimate (M.run (before.map (Call.shiftTimestamp k)))).jitterEstimateSamples =
          (estimate (M.run before)).jitterEstimateSamples) := by
  intro M
  have hshifted (hchain : (arrivals calls).IsChain (KeepsDistance k)) (before : List Call)
      (hb : before <+: calls) :
      Shifted k (M.run before) (M.run (before.map (Call.shiftTimestamp k))) := by
    refine shifted_run options junk k before ?_
    obtain ⟨after, rfl⟩ := hb
    rw [arrivals_append] at hchain
    exact hchain.left_of_append
  refine ⟨fun hchain => ⟨?_, ?_⟩, ⟨?_, isChain_of_estimate_eq options junk k calls⟩⟩
  · -- the results agree call by call
    refine List.ext_getElem? fun n => ?_
    rw [DetSystem.trace_getElem?, DetSystem.trace_getElem?, List.getElem?_map, Option.map_map,
      ← List.map_take]
    refine Option.map_congr fun call _ => ?_
    exact (hshifted hchain _ (List.take_prefix n calls)).returned call
  · intro before hb
    obtain ⟨timestamp, heq, _⟩ := hshifted hchain before hb
    rw [heq]
    exact ⟨rfl, rfl, rfl, rfl, rfl⟩
  · intro hchain before hb
    obtain ⟨timestamp, heq, _⟩ := hshifted hchain before hb
    rw [heq]
    rfl

/-- An empty mu-law packet of frame `k` in a stream whose timestamps start at `origin`. -/
def timedPacket (origin : U32) (k : Nat) : Packet where
  sequenceNumber := BitVec.ofNat 16 k
  rtpTimestamp := origin + BitVec.ofNat 32 (160 * k)
  payloadType := kPayloadTypePcmu
  payload := []

/-- A stream that starts at timestamp 0 keeps its results when all timestamps move by 160. -/
theorem timestamp_origin_independence_example :
    (jitterSystem (exactPlatform .little fun _ sample => sample) {}
      (Vector.replicate _ (Vector.replicate _ 0))).trace
        ([.push (timedPacket 0 0) 0, .push (timedPacket 0 1) 160, .pull 800].map
          (Call.shiftTimestamp 160)) =
      (jitterSystem (exactPlatform .little fun _ sample => sample) {}
        (Vector.replicate _ (Vector.replicate _ 0))).trace
        [.push (timedPacket 0 0) 0, .push (timedPacket 0 1) 160, .pull 800] := by
  refine ((timestamp_origin_independence .little (fun _ sample => sample) {}
    (Vector.replicate _ (Vector.replicate _ 0)) 160
    [.push (timedPacket 0 0) 0, .push (timedPacket 0 1) 160, .pull 800]).1 ?_).1
  exact List.IsChain.cons_cons (Or.inl (by decide)) (List.IsChain.singleton _)

/-- Two packets 20 ms apart, arriving 20 ms apart. When the timestamp wraps between them the estimate
jumps to 2^28 samples, the target depth goes to its maximum, and the first frame is not yet due at 800
samples; moved by 160, away from the wrap, it is. -/
theorem timestamp_origin_matters :
    let calls : List Call :=
      [.push (timedPacket (-160) 0) 0, .push (timedPacket (-160) 1) 160, .pull 800]
    let M := jitterSystem (exactPlatform .little fun _ sample => sample) {}
      (Vector.replicate _ (Vector.replicate _ 0))
    (estimate (M.run calls)).targetDepthMs = 200 ∧
      (estimate (M.run (calls.map (Call.shiftTimestamp 160)))).targetDepthMs = 100 ∧
      (M.trace calls)[2]? = some none ∧
      ((M.trace (calls.map (Call.shiftTimestamp 160)))[2]?).map Option.isSome = some true := by
  refine ⟨?_, ?_, ?_, ?_⟩ <;> decide +kernel

end RtpStreamer
