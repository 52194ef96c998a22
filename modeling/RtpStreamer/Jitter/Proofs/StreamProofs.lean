import RtpStreamer.Jitter.Proofs.LapProofs
import RtpStreamer.Sender.Proofs.AlignmentProofs

/-!
# One numbered stream under any calls

The packets that are pushed are packets of one numbered stream, its packet 0 first; the calls are otherwise
arbitrary: packets are repeated, left out and pushed in any order, the stream is ended and goes on, and the
clock of the pulls jumps. Every frame is still the frame of the packet with its number, or concealed.
-/

namespace RtpStreamer

variable {P : Platform} {options : Options} {n : Nat} {first : U16} {packets : Fin n → Packet}

/-- What the reference knows of the stream. -/
structure HearsStream (first : U16) (packets : Fin n → Packet) (calls : List Call) (r : Reference P) :
    Prop where
  started : r.started = true ↔ pushedPackets calls ≠ []
  base : r.started = true → r.baseSequence = first
  highest_lt : r.highest < n
  accepted_only : ∀ index packet, r.accepted index = some packet →
    ∃ i : Fin n, index = i.val ∧ packet = packets i

theorem HearsStream.push {r : Reference P} {calls : List Call} (hnum : Numbered first packets)
    (h : HearsStream first packets calls r) {i : Fin n} (arrival : U32)
    (hfirst : pushedPackets calls = [] → i.val = 0) :
    HearsStream first packets (calls ++ [.push (packets i) arrival]) (r.push (packets i) arrival) := by
  have hunstarted : r.started = false → pushedPackets calls = [] := by
    intro hs
    by_contra hne
    rw [h.started.mpr hne] at hs
    exact absurd hs (by decide)
  have hindex := indexOf_numbered hnum h.base (i := i) fun hs => hfirst (hunstarted hs)
  refine ⟨?_, ?_, ?_, ?_⟩
  · rw [pushedPackets_push]
    exact ⟨fun _ => by simp, fun _ => rfl⟩
  · intro _
    show (if r.started then r.baseSequence else (packets i).sequenceNumber) = first
    cases hs : r.started with
    | true => exact h.base hs
    | false =>
      rw [if_neg (by decide), hnum.2 i, hfirst (hunstarted hs)]
      exact BitVec.add_zero first
  · show max r.highest (r.indexOf (packets i).sequenceNumber) < n
    have hi := i.isLt
    have hlt := h.highest_lt
    rw [hindex]
    omega
  · intro index packet hpacket
    rcases Reference.of_push_accepted hpacket with hold | ⟨rfl, hnew, _⟩
    · exact h.accepted_only index packet hold
    · exact ⟨i, hnew.trans hindex, rfl⟩

theorem HearsStream.of_not_push {r : Reference P} {calls : List Call} (h : HearsStream first packets calls r)
    {call : Call} (hcall : call.isPush = false) :
    HearsStream first packets (calls ++ [call]) (r.next call) := by
  obtain ⟨hs, hb, hh, ha⟩ := next_of_not_push r call fun packet arrival heq => by
    rw [heq] at hcall
    exact absurd hcall (by simp [Call.isPush])
  refine ⟨?_, ?_, ?_, ?_⟩
  · rw [hs, pushedPackets_of_not_push calls hcall]
    exact h.started
  · rw [hs, hb]
    exact h.base
  · rw [hh]
    exact h.highest_lt
  · rw [ha]
    exact h.accepted_only

/-- The pushed packets are packets of the stream, and packet 0 is the first of them. -/
structure PushesOnly (packets : Fin n → Packet) (calls : List Call) : Prop where
  mem : ∀ packet ∈ pushedPackets calls, ∃ i, packet = packets i
  head : ∀ packet, (pushedPackets calls).head? = some packet →
    ∃ i : Fin n, i.val = 0 ∧ packet = packets i

theorem PushesOnly.initial {calls calls' : List Call} (h : PushesOnly packets calls')
    (hinit : calls <+: calls') : PushesOnly packets calls := by
  obtain ⟨rest, hrest⟩ := pushedPackets_initial hinit
  refine ⟨fun packet hmem => h.mem packet ?_, fun packet hhead => h.head packet ?_⟩
  · rw [← hrest]
    exact List.mem_append_left rest hmem
  · rw [← hrest, List.head?_append, hhead]
    rfl

theorem hearsStream_run (hnum : Numbered first packets) (calls : List Call)
    (hpushes : PushesOnly packets calls) :
    HearsStream first packets calls (refRun P options calls) := by
  induction calls using List.reverseRecOn with
  | nil =>
    refine ⟨⟨fun h => absurd h Bool.false_ne_true, fun h => absurd rfl h⟩,
      fun h => absurd h Bool.false_ne_true, ?_,
      fun _ _ h => absurd h (by simp [refRun, referenceSystem])⟩
    show (-1 : Int) < n
    omega
  | append_singleton calls call ih =>
    have ih := ih (hpushes.initial (List.prefix_append calls [call]))
    rw [refRun_snoc]
    cases hcall : call.isPush with
    | false => exact ih.of_not_push hcall
    | true =>
      cases call with
      | push packet arrival =>
        cases hbefore : pushedPackets calls with
        | nil =>
          -- the first packet of all is packet 0
          obtain ⟨i, hzero, rfl⟩ := hpushes.head packet (by rw [pushedPackets_push, hbefore]; rfl)
          exact ih.push hnum arrival fun _ => hzero
        | cons _ _ =>
          obtain ⟨i, rfl⟩ := hpushes.mem packet (by rw [pushedPackets_push]; simp)
          exact ih.push hnum arrival fun hnil => absurd (hnil.symm.trans hbefore) (by simp)
      | pull now => exact absurd hcall (by simp [Call.isPush])
      | markStreamEnded => exact absurd hcall (by simp [Call.isPush])

/-- Frame `i` of the output is the frame of packet `i`, or concealed and counted as lost. -/
theorem stream_playout (options : Options) (junk : Vector (Vector U8 kSlotPayloadBytes) kCapacity)
    (hnum : Numbered first packets) (calls : List Call) (hpushes : PushesOnly packets calls) :
    ∃ real : Nat → Option Frame,
      (∀ k frame, real k = some frame → ∃ i : Fin n, k = i.val ∧
        frame = decodePayload P.byteOrder (packets i).payloadType (packets i).payload) ∧
      (JitterBuffer.framesPlayed ((jitterSystem P options junk).run calls)).toNat ≤ n ∧
      ((jitterSystem P options junk).trace calls).filterMap id = (playout P options real
        (JitterBuffer.framesPlayed ((jitterSystem P options junk).run calls)).toNat).frames ∧
      (JitterBuffer.counts ((jitterSystem P options junk).run calls)).lost = JitterBuffer.missing real
        (JitterBuffer.framesPlayed ((jitterSystem P options junk).run calls)).toNat := by
  have hhears : HearsStream first packets calls (refRun P options calls) :=
    hearsStream_run hnum calls hpushes
  obtain ⟨hcursor, hplayed⟩ := refRun_cursor (P := P) options junk calls
  have hframes := trace_frames (P := P) options junk calls
  have hlost := JitterBuffer.lost_run (P := P) options junk calls
  rw [← hplayed]
  refine ⟨(refRun P options calls).realFrames, ?_, ?_, hframes, hlost⟩
  · intro k frame hreal
    obtain ⟨packet, hpacket, rfl⟩ := Option.map_eq_some_iff.mp hreal
    obtain ⟨i, hk, rfl⟩ := hhears.accepted_only _ packet hpacket
    exact ⟨i, Int.natCast_inj.mp hk, rfl⟩
  · have := hhears.highest_lt
    omega

end RtpStreamer
