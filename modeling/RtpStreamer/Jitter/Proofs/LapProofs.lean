import RtpStreamer.Jitter.Proofs.ConservationProofs
import RtpStreamer.Jitter.Proofs.DrainProofs
import RtpStreamer.Jitter.Proofs.EndOfStreamProofs
import RtpStreamer.Jitter.Proofs.LatenessProofs
import RtpStreamer.Stats.Proofs.SequenceTrackerProofs
import Mathlib.Algebra.Order.Ring.Int
import Mathlib.Data.Nat.Cast.Order.Ring

/-!
# Streams longer than the sequence space

A frame index is the signed 16-bit distance from the first sequence number, so packet 32768 of a stream
has index -32768 and packet 65536 has index 0 again. The first 32768 packets fill the map of the
reference from 0 to the frontier; from then on every index is either negative or already taken, so no
packet is accepted any more, however many laps the sequence numbers make.
-/

namespace RtpStreamer

variable {P : Platform}

/-- The packets carry consecutive sequence numbers, over any number of laps. -/
def ConsecutiveFrom (first : U16) (packets : Nat → Packet) : Prop :=
  ∀ i, (packets i).sequenceNumber = first + BitVec.ofNat 16 i

/-- The frames that the first 32768 packets belong to are in the window when the packets are pushed. -/
def PushedInWindow (P : Platform) (options : Options)
    (junk : Vector (Vector U8 kSlotPayloadBytes) kCapacity) (calls : List Call) : Prop :=
  ∀ before packet arrival, before ++ [.push packet arrival] <+: calls →
    (pushedPackets before).length < 32768 →
    (pushedPackets before).length -
      ((JitterBuffer.framesPlayed ((jitterSystem P options junk).run before)).toNat : Int) < 32

theorem PushedInWindow.initial {options : Options}
    {junk : Vector (Vector U8 kSlotPayloadBytes) kCapacity} {calls calls' : List Call}
    (h : PushedInWindow P options junk calls') (hinit : calls <+: calls') :
    PushedInWindow P options junk calls :=
  fun before packet arrival hb => h before packet arrival (hb.trans hinit)

/-! ## The map of the reference -/

/-- What the reference knows after the first `k` packets of the stream. -/
structure Lap (first : U16) (packets : Nat → Packet) (k : Nat) (r : Reference P) : Prop where
  started : r.started = true ↔ 0 < k
  base : r.started = true → r.baseSequence = first
  highest : r.highest = min (k : Int) 32768 - 1
  accepted : ∀ i : Int, r.accepted i =
    if 0 ≤ i ∧ i < min (k : Int) 32768 then some (packets i.toNat) else none

theorem lap_init (options : Options) (first : U16) (packets : Nat → Packet) :
    Lap first packets 0 (refRun P options []) where
  started := by simp [refRun, referenceSystem]
  base := by simp [refRun, referenceSystem]
  highest := by simp [refRun, referenceSystem]
  accepted i := by
    rw [if_neg (by omega)]
    rfl

/-- Packet `k` has an index below 32768, which is `k` on the first half lap. -/
theorem Lap.indexOf {first : U16} {packets : Nat → Packet} {k : Nat} {r : Reference P}
    (h : Lap first packets k r) (hseq : ConsecutiveFrom first packets) :
    r.indexOf (packets k).sequenceNumber ≤ 32767 ∧
      (k < 32768 → r.indexOf (packets k).sequenceNumber = k) := by
  refine ⟨(toInt_sub_spec _ _).2.1, fun hk => ?_⟩
  unfold Reference.indexOf
  cases hs : r.started with
  | true =>
    have hsub : first + BitVec.ofNat 16 k - first = BitVec.ofNat 16 k := by
      rw [BitVec.add_comm, BitVec.add_sub_cancel]
    rw [if_pos rfl, h.base hs, hseq k, hsub, BitVec.toInt_eq_toNat_cond, BitVec.toNat_ofNat]
    split_ifs <;> omega
  | false =>
    have hzero : ¬ 0 < k := fun hpos => by
      rw [h.started.mpr hpos] at hs
      exact absurd hs (by decide)
    rw [if_neg (by decide), BitVec.sub_self]
    show (0 : Int) = k
    omega

/-- Packet `k` is accepted if and only if it belongs to the first half lap. -/
theorem Lap.accepts_iff {first : U16} {packets : Nat → Packet} {k : Nat} {r : Reference P}
    (h : Lap first packets k r) (hseq : ConsecutiveFrom first packets)
    (hcursor : (r.cursor : Int) ≤ r.highest + 1)
    (hwindow : k < 32768 → (k : Int) < r.cursor + 32) :
    r.accepts (r.indexOf (packets k).sequenceNumber) = true ↔ k < 32768 := by
  obtain ⟨hle, hindex⟩ := h.indexOf hseq
  have hhighest := h.highest
  rw [r.accepts_iff]
  constructor
  · rintro ⟨hlo, _, hnone⟩
    by_contra hk
    -- every index from 0 on is taken
    rw [h.accepted, if_pos (by omega)] at hnone
    exact absurd hnone (by simp)
  · intro hk
    have hwin := hwindow hk
    rw [hindex hk]
    refine ⟨by omega, hwin, ?_⟩
    rw [h.accepted, if_neg (by omega)]

theorem Lap.push {first : U16} {packets : Nat → Packet} {k : Nat} {r : Reference P}
    (h : Lap first packets k r) (hseq : ConsecutiveFrom first packets)
    (hcursor : (r.cursor : Int) ≤ r.highest + 1)
    (hwindow : k < 32768 → (k : Int) < r.cursor + 32) (arrival : U32) :
    Lap first packets (k + 1) (r.push (packets k) arrival) := by
  obtain ⟨hle, hindex⟩ := h.indexOf hseq
  have hacc := h.accepts_iff hseq hcursor hwindow
  have hhighest := h.highest
  refine ⟨?_, ?_, ?_, ?_⟩
  · exact iff_of_true rfl (Nat.succ_pos k)
  · intro _
    show (if r.started then r.baseSequence else (packets k).sequenceNumber) = first
    cases hs : r.started with
    | true =>
      rw [if_pos rfl]
      exact h.base hs
    | false =>
      have hzero : k = 0 := by
        by_contra hne
        rw [h.started.mpr (Nat.pos_of_ne_zero hne)] at hs
        exact absurd hs (by decide)
      rw [if_neg (by decide), hzero, hseq 0]
      exact BitVec.add_zero first
  · show max r.highest _ = _
    push_cast
    by_cases hk : k < 32768
    · rw [hindex hk]
      omega
    · omega
  · intro i
    rw [r.push_accepted]
    by_cases hk : k < 32768
    · rw [if_pos (hacc.mpr hk), hindex hk]
      by_cases hi : i = k
      · subst hi
        rw [Function.update_self, if_pos (by push_cast; omega)]
        rfl
      · rw [Function.update_of_ne hi, h.accepted]
        by_cases hlt : 0 ≤ i ∧ i < min (k : Int) 32768
        · rw [if_pos hlt, if_pos (by push_cast; omega)]
        · rw [if_neg hlt, if_neg (by push_cast; omega)]
    · rw [if_neg (mt hacc.mp hk), h.accepted]
      by_cases hlt : 0 ≤ i ∧ i < min (k : Int) 32768
      · rw [if_pos hlt, if_pos (by push_cast; omega)]
      · rw [if_neg hlt, if_neg (by push_cast; omega)]

theorem Lap.of_not_push {first : U16} {packets : Nat → Packet} {k : Nat} {r : Reference P}
    (h : Lap first packets k r) {call : Call} (hcall : call.isPush = false) :
    Lap first packets k (r.next call) := by
  obtain ⟨hs, hb, hh, ha⟩ := next_of_not_push r call (by
    rintro packet arrival rfl
    exact absurd hcall (by simp [Call.isPush]))
  refine ⟨by rw [hs]; exact h.started, by rw [hs, hb]; exact h.base, by rw [hh]; exact h.highest, ?_⟩
  rw [ha]
  exact h.accepted

/-- The cursor of the reference stays behind its frontier. -/
theorem refRun_cursor (options : Options) (junk : Vector (Vector U8 kSlotPayloadBytes) kCapacity)
    (calls : List Call) :
    ((refRun P options calls).cursor : Int) ≤ (refRun P options calls).highest + 1 ∧
      (refRun P options calls).cursor =
        (JitterBuffer.framesPlayed ((jitterSystem P options junk).run calls)).toNat := by
  have h := JitterBuffer.matches_run (P := P) options junk calls
  have hplayed := h.inv.played_le
  rw [← h.cursor, ← h.highest] at hplayed
  exact ⟨hplayed, h.cursor⟩

/-- After any part of the run the map has the packets pushed so far, of the first half lap. -/
theorem lap_run {options : Options} {junk : Vector (Vector U8 kSlotPayloadBytes) kCapacity}
    {first : U16} {packets : Nat → Packet} (hseq : ConsecutiveFrom first packets)
    (calls : List Call) : ∀ n, pushedPackets calls = (List.range n).map packets →
      PushedInWindow P options junk calls → Lap first packets n (refRun P options calls) := by
  induction calls using List.reverseRecOn with
  | nil =>
    intro n hpushed _
    obtain rfl : n = 0 := by simpa [pushedPackets] using (congrArg List.length hpushed).symm
    exact lap_init options first packets
  | append_singleton calls call ih =>
    intro n hpushed hwindow
    have hinit := hwindow.initial (List.prefix_append calls [call])
    rw [refRun_snoc]
    cases hcall : call.isPush with
    | false =>
      rw [pushedPackets_of_not_push calls hcall] at hpushed
      exact (ih n hpushed hinit).of_not_push hcall
    | true =>
      cases call with
      | push packet arrival =>
        rw [pushedPackets_push] at hpushed
        cases n with
        | zero => exact absurd hpushed (by simp)
        | succ k =>
          rw [List.range_succ, List.map_append] at hpushed
          obtain ⟨hbefore, hlast⟩ := List.append_inj' hpushed rfl
          obtain rfl : packet = packets k := List.head_eq_of_cons_eq hlast
          have hk : (pushedPackets calls).length = k := by rw [hbefore]; simp
          obtain ⟨hcursor, hplayed⟩ := refRun_cursor (P := P) options junk calls
          refine (ih k hbefore hinit).push hseq hcursor (fun hlt => ?_) arrival
          have hin := hwindow calls _ arrival (List.prefix_refl _) (by omega)
          omega
      | pull now => exact absurd hcall (by simp [Call.isPush])
      | markStreamEnded => exact absurd hcall (by simp [Call.isPush])

/-! ## Which packets are stored -/

/-- A prefix of a numbered list is a numbered list. -/
theorem initial_eq_map_range {α : Type} {f : Nat → α} {n : Nat} {xs : List α}
    (h : xs <+: (List.range n).map f) : xs = (List.range xs.length).map f := by
  have hlen := h.length_le
  rw [List.length_map, List.length_range] at hlen
  rw [List.prefix_iff_eq_take] at h
  conv_lhs => rw [h]
  rw [← List.map_take, List.take_range, Nat.min_eq_left hlen]

theorem pushedPackets_initial {calls calls' : List Call} (h : calls <+: calls') :
    pushedPackets calls <+: pushedPackets calls' := by
  obtain ⟨rest, rfl⟩ := h
  unfold pushedPackets
  rw [List.filterMap_append]
  exact List.prefix_append _ _

/-- A packet is stored if and only if it is one of the first 32768. -/
theorem stores_iff_first_lap {options : Options}
    {junk : Vector (Vector U8 kSlotPayloadBytes) kCapacity} {first : U16} {packets : Nat → Packet}
    (hseq : ConsecutiveFrom first packets) {calls : List Call} {n : Nat}
    (hpushed : pushedPackets calls = (List.range n).map packets)
    (hwindow : PushedInWindow P options junk calls) {before : List Call} {packet : Packet}
    {arrival : U32} (hinit : before ++ [.push packet arrival] <+: calls) :
    JitterBuffer.stores ((jitterSystem P options junk).run before) packet arrival = true ↔
      (pushedPackets before).length < 32768 := by
  have hall := pushedPackets_initial hinit
  rw [hpushed] at hall
  have hall := initial_eq_map_range hall
  rw [pushedPackets_push, List.length_append, List.length_singleton, List.range_succ,
    List.map_append] at hall
  obtain ⟨hbefore, hlast⟩ := List.append_inj' hall rfl
  obtain rfl : packet = packets (pushedPackets before).length := List.head_eq_of_cons_eq hlast
  have hlap := lap_run hseq before _ hbefore
    (hwindow.initial ((List.prefix_append before _).trans hinit))
  obtain ⟨hcursor, hplayed⟩ := refRun_cursor (P := P) options junk before
  have hacc := (JitterBuffer.matches_run (P := P) options junk before).accepts_iff
    (packets (pushedPackets before).length) arrival
  refine (JitterBuffer.stores_iff _ _ _).trans (hacc.symm.trans
    (hlap.accepts_iff hseq hcursor fun hlt => ?_))
  have hin := hwindow before _ arrival hinit hlt
  rw [hplayed]
  omega

/-! ## The drained stream -/

/-- A playout without a gap is the list of the frames. -/
theorem playout_of_all (options : Options) {real : Nat → Option Frame} {f : Nat → Frame} (n : Nat)
    (h : ∀ i, i < n → real i = some (f i)) :
    (playout P options real n).frames = (List.range n).map f := by
  induction n with
  | zero => rfl
  | succ n ih =>
    rw [playout, h n (by omega), List.range_succ, List.map_append, ← ih fun i hi => h i (by omega)]
    rfl

theorem missing_of_all {real : Nat → Option Frame} {f : Nat → Frame} {n : Nat}
    (h : ∀ i, i < n → real i = some (f i)) : JitterBuffer.missing real n = 0 := by
  refine List.countP_eq_zero.mpr fun i hi => ?_
  rw [h i (List.mem_range.mp hi)]
  exact Bool.false_ne_true

theorem received_run (options : Options) (junk : Vector (Vector U8 kSlotPayloadBytes) kCapacity)
    (calls : List Call) :
    (JitterBuffer.counts ((jitterSystem P options junk).run calls)).received =
      (pushedPackets calls).length := by
  induction calls using List.reverseRecOn with
  | nil => rfl
  | append_singleton calls call ih =>
    rw [DetSystem.run_snoc]
    cases call with
    | push packet arrival =>
      rw [pushedPackets_push, List.length_append, List.length_singleton, ← ih]
      exact (JitterBuffer.push_tracking _ packet arrival).2.2.1
    | pull now =>
      rw [pushedPackets_of_not_push calls rfl, ← ih]
      exact JitterBuffer.pull_received _ now
    | markStreamEnded =>
      rw [pushedPackets_of_not_push calls rfl, ← ih]
      rfl

theorem pushedPackets_drain (calls : List Call) (nows : List U32) :
    pushedPackets (calls ++ drain nows) = pushedPackets calls := by
  induction nows using List.reverseRecOn with
  | nil => exact pushedPackets_of_not_push calls rfl
  | append_singleton nows now ih =>
    rw [drain_snoc, ← List.append_assoc, pushedPackets_of_not_push _ rfl, ih]

/-- **Long streams.** When any number of consecutive packets are pushed in order, the first 32768 of them
within the window, and the stream is ended and drained, the frames are those of the first 32768 packets,
none is lost, and every other packet was rejected when it was pushed. -/
theorem long_streams_never_alias (P : Platform) (options : Options)
    (junk : Vector (Vector U8 kSlotPayloadBytes) kCapacity) (first : U16) (packets : Nat → Packet)
    (hseq : ConsecutiveFrom first packets) (n : Nat) (calls : List Call)
    (hpushed : pushedPackets calls = (List.range n).map packets)
    (hwindow : PushedInWindow P options junk calls) (nows : List U32)
    (hdrained : JitterBuffer.finished ((jitterSystem P options junk).run (calls ++ drain nows)) = true) :
    let jb : JitterBuffer P := (jitterSystem P options junk).run (calls ++ drain nows)
    ((jitterSystem P options junk).trace (calls ++ drain nows)).filterMap id =
      (List.range (min n 32768)).map
        (fun i => decodePayload P.byteOrder (packets i).payloadType (packets i).payload) ∧
    jb.counts.lost = 0 ∧
    jb.counts.lateDropped + jb.counts.duplicate = n - min n 32768 ∧
    ∀ before packet arrival, before ++ [.push packet arrival] <+: calls →
      (JitterBuffer.stores ((jitterSystem P options junk).run before) packet arrival = true ↔
        (pushedPackets before).length < 32768) := by
  intro jb
  have hmatch : JitterBuffer.Matches jb (refRun P options (calls ++ drain nows)) :=
    JitterBuffer.matches_run options junk (calls ++ drain nows)
  have hlap := lap_run hseq calls n hpushed hwindow
  obtain ⟨_, hh, ha, he⟩ := refRun_end (P := P) options calls nows
  have hended : jb.streamEnded = true := hmatch.ended.symm.trans he
  have hleft := (hmatch.inv.finished_iff hended).mp hdrained
  have hplayed := hmatch.inv.played_le
  have hhighest : jb.highestFrameIndexSeen = min (n : Int) 32768 - 1 :=
    hmatch.highest.symm.trans (hh.trans hlap.highest)
  have hcursor : jb.framesPlayed.toNat = min n 32768 := by
    unfold JitterBuffer.framesLeft at hleft
    omega
  have hreal (i : Nat) (hi : i < min n 32768) :
      (refRun P options (calls ++ drain nows)).realFrames i =
        some (decodePayload P.byteOrder (packets i).payloadType (packets i).payload) := by
    unfold Reference.realFrames
    rw [ha, hlap.accepted, if_pos (by omega)]
    rfl
  have hlost : jb.counts.lost = 0 := by
    refine (JitterBuffer.lost_run (P := P) options junk (calls ++ drain nows)).trans ?_
    refine missing_of_all
      (f := fun i => decodePayload P.byteOrder (packets i).payloadType (packets i).payload)
      fun i hi => hreal i ?_
    rw [← hcursor, ← hmatch.cursor]
    exact hi
  refine ⟨?_, hlost, ?_, fun before packet arrival hinit =>
    stores_iff_first_lap hseq hpushed hwindow hinit⟩
  · rw [trace_frames, hmatch.cursor, hcursor]
    exact playout_of_all options _ hreal
  · -- the books: every packet received was dropped or played
    have hbal : jb.Balanced _ := JitterBuffer.balanced_run options junk (calls ++ drain nows)
    have hpackets := hbal.packets
    have hframes := hbal.frames
    have hreceived : jb.counts.received = n := by
      refine (received_run (P := P) options junk (calls ++ drain nows)).trans ?_
      rw [pushedPackets_drain, hpushed, List.length_map, List.length_range]
    rw [hmatch.inv.occupiedSlots_eq_zero (by omega)] at hpackets
    omega

/-! ## A stream played in step -/

/-- Behind each packet a pull at the last tick of the clock, which plays its frame if it is due. -/
def inStep (packets : Nat → Packet) : Nat → List Call
  | 0 => []
  | n + 1 => inStep packets n ++ [.push (packets n) 0] ++ [.pull 0xFFFFFFFF]

section InStep

variable {options : Options} {junk : Vector (Vector U8 kSlotPayloadBytes) kCapacity} {first : U16}
  {packets : Nat → Packet}

theorem pushedPackets_inStep (packets : Nat → Packet) (n : Nat) :
    pushedPackets (inStep packets n) = (List.range n).map packets := by
  induction n with
  | zero => rfl
  | succ n ih =>
    rw [inStep, pushedPackets_of_not_push _ rfl, pushedPackets_push, ih, List.range_succ, List.map_append]
    rfl

/-- The cursor has passed every packet of the first half lap. -/
theorem inStep_run (options : Options) (junk : Vector (Vector U8 kSlotPayloadBytes) kCapacity)
    (hseq : ConsecutiveFrom first packets) (n : Nat) :
    Lap first packets n (refRun P options (inStep packets n)) ∧
      (JitterBuffer.framesPlayed ((jitterSystem P options junk).run (inStep packets n))).toNat =
        min n 32768 := by
  induction n with
  | zero => exact ⟨lap_init options first packets, rfl⟩
  | succ n ih =>
    obtain ⟨hlap, hplayed⟩ := ih
    obtain ⟨hbehind, hcursor⟩ := refRun_cursor (P := P) options junk (inStep packets n)
    have hpushed : Lap first packets (n + 1)
        (refRun P options (inStep packets n ++ [.push (packets n) 0])) := by
      rw [refRun_snoc]
      exact hlap.push hseq hbehind (fun hlt => by omega) 0
    have hpulled : Lap first packets (n + 1) (refRun P options (inStep packets (n + 1))) := by
      rw [inStep, refRun_snoc]
      exact hpushed.of_not_push rfl
    refine ⟨hpulled, ?_⟩
    have hmatch := JitterBuffer.matches_run (P := P) options junk
      (inStep packets n ++ [.push (packets n) 0])
    have hmatch' := JitterBuffer.matches_run (P := P) options junk (inStep packets (n + 1))
    have hhighest := hmatch.highest.symm.trans hpushed.highest
    have hhighest' := hmatch'.highest.symm.trans hpulled.highest
    have hsame : (JitterBuffer.framesPlayed ((jitterSystem P options junk).run
        (inStep packets n ++ [.push (packets n) 0]))).toNat = min n 32768 := by
      rw [← hplayed, DetSystem.run_snoc]
      exact congrArg BitVec.toNat (JitterBuffer.push_framesPlayed _ (packets n) 0)
    -- the packet leaves one frame at most, and the pull plays it
    have hleft : JitterBuffer.framesLeft ((jitterSystem P options junk).run
        (inStep packets (n + 1))) = 0 := by
      rw [inStep, DetSystem.run_snoc]
      refine hmatch.inv.pull_last_tick.trans ?_
      unfold JitterBuffer.framesLeft
      omega
    have hend := hmatch'.inv.played_of_none_left hleft
    rw [hhighest', sub_add_cancel] at hend
    exact Int.natCast_inj.mp (hend.trans (Nat.cast_min (n + 1) 32768).symm)

theorem PushedInWindow.snoc {calls : List Call} (h : PushedInWindow P options junk calls) {call : Call}
    (hcall : call.isPush = true → (pushedPackets calls).length < 32768 →
      (pushedPackets calls).length -
        ((JitterBuffer.framesPlayed ((jitterSystem P options junk).run calls)).toNat : Int) < 32) :
    PushedInWindow P options junk (calls ++ [call]) := by
  intro before packet arrival hinit hlt
  rcases List.prefix_concat_iff.mp hinit with hlast | hinit
  · obtain ⟨rfl, hpush⟩ := List.append_inj' hlast rfl
    exact hcall (by rw [← List.head_eq_of_cons_eq hpush]; rfl) hlt
  · exact h before packet arrival hinit hlt

theorem pushedInWindow_inStep (hseq : ConsecutiveFrom first packets) (n : Nat) :
    PushedInWindow P options junk (inStep packets n) := by
  induction n with
  | zero => exact fun before packet arrival hinit => absurd hinit.length_le (by simp [inStep])
  | succ n ih =>
    have hplayed := (inStep_run (P := P) options junk hseq n).2
    rw [inStep]
    refine (ih.snoc fun _ hlt => ?_).snoc fun hpull => absurd hpull (by simp [Call.isPush])
    rw [pushedPackets_inStep, List.length_map, List.length_range] at hlt ⊢
    omega

/-- Nothing is left to drain. -/
theorem finished_inStep (options : Options) (junk : Vector (Vector U8 kSlotPayloadBytes) kCapacity)
    (hseq : ConsecutiveFrom first packets) (n : Nat) :
    JitterBuffer.finished ((jitterSystem P options junk).run (inStep packets n ++ drain [])) = true := by
  obtain ⟨hlap, hplayed⟩ := inStep_run (P := P) options junk hseq n
  have hhighest := (JitterBuffer.matches_run (P := P) options junk (inStep packets n)).highest.symm.trans
    hlap.highest
  have hinv := JitterBuffer.inv_run (P := P) options junk (inStep packets n ++ drain [])
  obtain ⟨hended, hleft⟩ := JitterBuffer.drain_run (P := P) options junk (inStep packets n) [] (by simp)
  refine (hinv.finished_iff hended).mpr (hleft.trans ?_)
  show JitterBuffer.framesLeft _ = 0
  unfold JitterBuffer.framesLeft
  omega

end InStep

/-- A stream of 100000 packets, more than a lap and a half: the first 32768 frames are played, nothing is
lost, and the other 67232 packets are rejected. -/
theorem long_streams_never_alias_example :
    let P := exactPlatform .little fun _ sample => sample
    let junk := Vector.replicate kCapacity (Vector.replicate kSlotPayloadBytes 0)
    let packets : Nat → Packet := fun i => silentPacket (65535 + i)
    let jb : JitterBuffer P := (jitterSystem P {} junk).run (inStep packets 100000 ++ drain [])
    ((jitterSystem P {} junk).trace (inStep packets 100000 ++ drain [])).filterMap id =
      (List.range 32768).map
        (fun i => decodePayload P.byteOrder (packets i).payloadType (packets i).payload) ∧
    jb.counts.lost = 0 ∧ jb.counts.lateDropped + jb.counts.duplicate = 67232 := by
  intro P junk packets
  have hseq : ConsecutiveFrom 65535 packets := fun i => BitVec.ofNat_add 65535 i
  have hcount : min 100000 32768 = 32768 := by decide
  obtain ⟨hframes, hlost, hdropped, _⟩ := long_streams_never_alias P {} junk 65535 packets hseq 100000
    (inStep packets 100000) (pushedPackets_inStep packets 100000) (pushedInWindow_inStep hseq 100000) []
    (finished_inStep {} junk hseq 100000)
  rw [hcount] at hframes hdropped
  exact ⟨hframes, hlost, hdropped⟩

end RtpStreamer
