import RtpStreamer.Jitter.Paced
import RtpStreamer.Jitter.Proofs.DrainProofs
import RtpStreamer.Jitter.Proofs.LatenessProofs
import RtpStreamer.Jitter.Proofs.PendingProofs

/-!
# The latency of a paced run

When a packet is stored behind a frame that has been played, the deadline of that frame has passed, and
the packet lies at most 32 frames behind it; when nothing has been played yet, it lies at most 31 frames
behind the first arrival. So the deadline of a stored packet is at most 6560 samples after its arrival
(`Punctual`), and the next tick behind the deadline plays it.
-/

namespace RtpStreamer

variable {P : Platform}

/-! ## Punctual buffers -/

namespace JitterBuffer

/-- The buffer of a paced run at a clock, in front of a tick. -/
structure Punctual (jb : JitterBuffer P) (clock tick : Nat) : Prop where
  inv : jb.Inv
  depth : jb.DepthBounded
  clock_le : clock ≤ tick
  tick_le : tick ≤ clock + 160
  first_le : jb.started = true → jb.firstArrivalSamples.toNat ≤ clock
  /-- The deadline of the frame in front of the cursor has passed. -/
  played : jb.streamEnded = false → 0 < jb.framesPlayed.toNat →
    jb.firstArrivalSamples.toNat + 160 * jb.framesPlayed.toNat + 640 ≤ clock
  /-- A stored packet is played at the tick if it is due, and is due 6560 samples after its arrival. -/
  slot : ∀ i, (jb.slots.get i).occupied = true →
    (jb.slots.get i).arrivalSamples.toNat ≤ clock ∧
    tick < (jb.slots.get i).arrivalSamples.toNat + 6720 ∧
    (jb.streamEnded = false →
      jb.firstArrivalSamples.toNat + 160 * jb.frameIndex (jb.slots.get i).sequenceNumber + 1600 ≤
        (jb.slots.get i).arrivalSamples.toNat + 6560)

theorem Inv.framesPlayed_eq_zero {jb : JitterBuffer P} (h : jb.Inv) (hs : jb.started = false) :
    jb.framesPlayed.toNat = 0 := by
  have hplayed := h.played_le
  have hnot : ¬ 0 ≤ jb.highestFrameIndexSeen := fun h0 => by
    rw [h.started_iff.mpr h0] at hs
    cases hs
  omega

theorem push_firstArrivalSamples (jb : JitterBuffer P) (packet : Packet) (arrival : U32) :
    (jb.push packet arrival).firstArrivalSamples =
      if jb.started then jb.firstArrivalSamples else arrival := by
  obtain ⟨slots, counts, h⟩ := (jb.noteArrival packet arrival).place_frame packet arrival
  rw [JitterBuffer.push, h]; rfl

/-- The deadline of a packet that is stored now lies at most 6560 samples ahead. -/
theorem Punctual.due_of_stores {jb : JitterBuffer P} {clock tick : Nat} (h : jb.Punctual clock tick)
    {packet : Packet} {arrival : U32} (hclock : clock ≤ arrival.toNat)
    (hended : jb.streamEnded = false) (hstores : jb.stores packet arrival = true) :
    (jb.push packet arrival).firstArrivalSamples.toNat +
        160 * (jb.push packet arrival).frameIndex packet.sequenceNumber + 1600 ≤
      arrival.toNat + 6560 := by
  obtain ⟨_, hhi, _⟩ := (stores_iff jb packet arrival).mp hstores
  rw [(h.inv.noteArrival packet arrival).cursor_eq] at hhi
  have hplayed : (jb.noteArrival packet arrival).framesPlayed = jb.framesPlayed := rfl
  have hindex : (jb.push packet arrival).frameIndex packet.sequenceNumber =
      (jb.noteArrival packet arrival).frameIndex packet.sequenceNumber := by
    rw [frameIndex, push_baseSequence]
    rfl
  rw [hplayed] at hhi
  rw [push_firstArrivalSamples, hindex]
  rcases Nat.eq_zero_or_pos jb.framesPlayed.toNat with hzero | hpos
  · -- nothing has been played
    cases hs : jb.started with
    | false =>
      show ((arrival.toNat : Nat) : Int) + _ + _ ≤ _
      omega
    | true =>
      have hfirst := h.first_le hs
      show ((jb.firstArrivalSamples.toNat : Nat) : Int) + _ + _ ≤ _
      omega
  · have hpast := h.played hended hpos
    cases hs : jb.started with
    | false =>
      have hzero := h.inv.framesPlayed_eq_zero hs
      omega
    | true =>
      show ((jb.firstArrivalSamples.toNat : Nat) : Int) + _ + _ ≤ _
      omega

theorem Punctual.push {jb : JitterBuffer P} {clock tick : Nat} (h : jb.Punctual clock tick)
    (packet : Packet) {arrival : U32} (hclock : clock ≤ arrival.toNat) (htick : arrival.toNat ≤ tick) :
    (jb.push packet arrival).Punctual arrival.toNat tick := by
  have hnext := h.tick_le
  refine ⟨h.inv.push packet arrival, h.depth.next (.push packet arrival), htick, by omega, ?_, ?_, ?_⟩
  · intro _
    rw [push_firstArrivalSamples]
    cases hs : jb.started with
    | false => exact le_rfl
    | true => exact le_trans (h.first_le hs) hclock
  · intro hended hpos
    rw [push_streamEnded] at hended
    rw [push_framesPlayed] at hpos ⊢
    rw [push_firstArrivalSamples]
    cases hs : jb.started with
    | false =>
      have hzero := h.inv.framesPlayed_eq_zero hs
      omega
    | true => exact le_trans (h.played hended hpos) hclock
  · intro i hocc
    by_cases hold : (jb.slots.get i).occupied = true
    · -- a packet that was there before
      obtain ⟨harrived, hplayed, hdue⟩ := h.slot i hold
      have hs : jb.started = true := h.inv.started_of_left (h.inv.left_of_occupied hold)
      rw [push_keeps_occupied h.inv packet arrival hold]
      refine ⟨le_trans harrived hclock, hplayed, fun hended => ?_⟩
      rw [push_streamEnded] at hended
      rw [push_firstArrivalSamples, if_pos hs, frameIndex, push_baseSequence, baseAfter, if_pos hs]
      exact hdue hended
    · -- the packet that is stored
      have hslots := push_slots jb packet arrival
      by_cases hstores : jb.stores packet arrival = true
      · rw [if_pos hstores] at hslots
        by_cases hi : slotIndex packet.sequenceNumber = i
        · rw [hslots, get_setAt, if_pos hi]
          refine ⟨le_rfl, ?_, fun hended => ?_⟩
          · show tick < arrival.toNat + 6720
            omega
          · rw [push_streamEnded] at hended
            exact h.due_of_stores hclock hended hstores
        · rw [hslots, get_setAt, if_neg hi] at hocc
          exact absurd hocc hold
      · rw [if_neg hstores] at hslots
        rw [hslots] at hocc
        exact absurd hocc hold

theorem pull_firstArrivalSamples (jb : JitterBuffer P) (now : U32) :
    (jb.tryPullDueFrame now).2.firstArrivalSamples = jb.firstArrivalSamples ∧
      (jb.tryPullDueFrame now).2.started = jb.started ∧
      (jb.tryPullDueFrame now).2.baseSequence = jb.baseSequence := by
  rcases jb.tryPullDueFrame_cases now with ⟨_, hp⟩ | ⟨_, _, hp⟩ | ⟨_, _, hp⟩ <;> rw [hp] <;>
    exact ⟨rfl, rfl, rfl⟩

/-- When the loop ends at a tick, what is still stored is not due within 6560 samples of its arrival. -/
theorem Punctual.waits {jb : JitterBuffer P} {clock : Nat} {now : U32}
    (h : jb.Punctual clock now.toNat) (hbound : now.toNat < 2 ^ 31) (hloop : jb.loopEnds now = true)
    {i : Fin kCapacity} (hocc : ((jb.tryPullDueFrame now).2.slots.get i).occupied = true) :
    now.toNat < (jb.slots.get i).arrivalSamples.toNat + 6560 := by
  have hslot := pull_slots now hocc
  have hleft := (h.inv.pull now).left_of_occupied hocc
  rcases Bool.or_eq_true _ _ |>.mp hloop with hnone | hfinished
  · -- the pull returned false, although a frame is left
    have hdue : jb.isDue now = false := by
      rw [← pull_isSome, ← Option.not_isNone, hnone]
      rfl
    rw [tryPullDueFrame_of_not_due hdue] at hocc hleft
    obtain ⟨_, hlo, _, hle⟩ := h.inv.window i hocc
    obtain ⟨_, _, hlatest⟩ := h.slot i hocc
    have hstarted := h.inv.started_of_left hleft
    have hfirst := h.first_le hstarted
    have hclock := h.clock_le
    obtain ⟨_, hdeadline⟩ := deadline_bounds h.inv h.depth (by omega)
    have hnot : ¬ (jb.streamEnded = true ∨ jb.deadline ≤ now) := by
      intro hready
      rw [isDue_iff.mpr ⟨hstarted, h.inv.cursor_le_iff.mpr hleft, hready⟩] at hdue
      cases hdue
    rw [not_or, Bool.not_eq_true, BitVec.le_def] at hnot
    have hlatest := hlatest hnot.1
    omega
  · -- a finished buffer has nothing stored
    rw [(h.inv.pull now).not_finished_of_left hleft] at hfinished
    cases hfinished

theorem Punctual.pull {jb : JitterBuffer P} {clock tick : Nat} {now : U32}
    (h : jb.Punctual clock now.toNat) (hbound : now.toNat < 2 ^ 31)
    (htick : tick = now.toNat ∨ tick = now.toNat + 160 ∧ jb.loopEnds now = true) :
    (jb.tryPullDueFrame now).2.Punctual now.toNat tick := by
  obtain ⟨hfirst, hstarted, hbase⟩ := jb.pull_firstArrivalSamples now
  obtain ⟨hended, _, hplayed⟩ := jb.pull_cursor now
  have hclock := h.clock_le
  refine ⟨h.inv.pull now, h.depth.next (.pull now), by omega, by omega, ?_, ?_, ?_⟩
  · rw [hstarted, hfirst]
    intro hs
    exact le_trans (h.first_le hs) hclock
  · rw [hended, hfirst, hplayed]
    intro hopen
    cases hdue : jb.isDue now with
    | false =>
      rw [if_neg Bool.false_ne_true]
      intro hpos
      exact le_trans (h.played hopen hpos) hclock
    | true =>
      rw [if_pos rfl]
      intro _
      obtain ⟨hs, hcur, hready⟩ := isDue_iff.mp hdue
      have hle := h.first_le hs
      obtain ⟨hdeadline, _⟩ := deadline_bounds h.inv h.depth (by omega)
      rw [hopen, BitVec.le_def] at hready
      have hready := hready.resolve_left Bool.false_ne_true
      rw [h.inv.framesPlayed_succ hcur]
      omega
  · intro i hocc
    have hslot := pull_slots now hocc
    rw [hslot] at hocc ⊢
    obtain ⟨harrived, hnext, hdue⟩ := h.slot i hocc
    refine ⟨le_trans harrived hclock, ?_, ?_⟩
    · rcases htick with rfl | ⟨rfl, hloop⟩
      · exact hnext
      · have hwaits := h.waits hbound hloop (i := i) (by rw [hslot]; exact hocc)
        omega
    · rw [hended, hfirst, frameIndex, hbase]
      exact hdue

theorem Punctual.markStreamEnded {jb : JitterBuffer P} {clock tick : Nat}
    (h : jb.Punctual clock tick) : jb.markStreamEnded.Punctual clock tick := by
  refine ⟨h.inv.next .markStreamEnded, h.depth, h.clock_le, h.tick_le, h.first_le, ?_, ?_⟩
  · intro hopen
    cases hopen
  · intro i hocc
    obtain ⟨harrived, hnext, _⟩ := h.slot i hocc
    exact ⟨harrived, hnext, fun hopen => absurd hopen (by simp [JitterBuffer.markStreamEnded])⟩

theorem punctual_fresh (options : Options) (junk : Vector (Vector U8 kSlotPayloadBytes) kCapacity)
    {clock tick : Nat} (hle : clock ≤ tick) (htick : tick ≤ clock + 160) :
    (fresh P options junk).Punctual clock tick := by
  refine ⟨inv_fresh options junk, depthBounded_run options junk [], hle, htick, ?_, ?_, ?_⟩
  · intro hs
    cases hs
  · intro _ hpos
    cases hpos
  · intro i hocc
    rw [fresh_not_occupied] at hocc
    cases hocc

end JitterBuffer

open JitterBuffer

section Run

variable {options : Options} {junk : Vector (Vector U8 kSlotPayloadBytes) kCapacity}
  {calls : List Call} {clock tick : Nat}

theorem Paced.punctual (h : Paced P options junk calls clock tick) :
    Punctual ((jitterSystem P options junk).run calls) clock tick := by
  induction h with
  | start hle htick => exact punctual_fresh options junk hle htick
  | push _ packet hclock htick _ ih =>
    rw [DetSystem.run_snoc]
    exact ih.push packet hclock htick
  | markStreamEnded _ ih =>
    rw [DetSystem.run_snoc]
    exact ih.markStreamEnded
  | again _ hbound _ ih =>
    rw [DetSystem.run_snoc]
    exact ih.pull hbound (Or.inl rfl)
  | rest _ hbound hloop ih =>
    rw [DetSystem.run_snoc]
    exact ih.pull hbound (Or.inr ⟨rfl, hloop⟩)

/-- The clock of a paced run is the largest that its calls carry. -/
theorem Paced.le_clock (h : Paced P options junk calls clock tick) :
    ∀ call ∈ calls, ∀ c, call.clock = some c → c.toNat ≤ clock := by
  induction h with
  | start => exact fun call hcall => absurd hcall List.not_mem_nil
  | push h packet hclock _ _ ih =>
    rw [List.forall_mem_append]
    refine ⟨fun call hcall c hc => le_trans (ih call hcall c hc) hclock, ?_⟩
    intro call hcall c hc
    obtain rfl := List.mem_singleton.mp hcall
    obtain rfl := Option.some.inj hc
    exact le_rfl
  | markStreamEnded _ ih =>
    rw [List.forall_mem_append]
    refine ⟨ih, fun call hcall c hc => ?_⟩
    obtain rfl := List.mem_singleton.mp hcall
    cases hc
  | again h hbound _ ih | rest h hbound _ ih =>
    rw [List.forall_mem_append]
    refine ⟨fun call hcall c hc => le_trans (ih call hcall c hc) h.punctual.clock_le, ?_⟩
    intro call hcall c hc
    obtain rfl := List.mem_singleton.mp hcall
    obtain rfl := Option.some.inj hc
    exact le_rfl

/-- The run in front of a pull was paced, and its tick was that of the pull. -/
theorem Paced.at_pull (h : Paced P options junk calls clock tick) {m : Nat} {now : U32}
    (hcall : calls[m]? = some (.pull now)) :
    ∃ before, Paced P options junk (calls.take m) before now.toNat := by
  induction h with
  | start => cases hcall
  | push _ _ _ _ _ ih | markStreamEnded _ ih =>
    rcases getElem?_snoc_cases hcall with ⟨hcall, htake⟩ | ⟨_, hcall, _⟩
    · rw [htake]
      exact ih hcall
    · cases hcall
  | again h _ _ ih | rest h _ _ ih =>
    rcases getElem?_snoc_cases hcall with ⟨hcall, htake⟩ | ⟨_, hcall, htake⟩
    · rw [htake]
      exact ih hcall
    · obtain rfl := Call.pull.inj hcall
      rw [htake]
      exact ⟨_, h⟩

end Run

/-! ## The recorded latencies -/

namespace JitterBuffer

/-- Only a call that plays a packet records a latency. -/
theorem next_latency_of_not_playsReal {jb : JitterBuffer P} {call : Call}
    (h : jb.playsReal call = false) : (jb.next call).latencySamplesMs = jb.latencySamplesMs := by
  cases call with
  | push packet arrival =>
    obtain ⟨slots, counts, hframe⟩ := (jb.noteArrival packet arrival).place_frame packet arrival
    show (jb.push packet arrival).latencySamplesMs = _
    rw [push, hframe]
    rfl
  | pull now =>
    show (jb.tryPullDueFrame now).2.latencySamplesMs = _
    rcases jb.tryPullDueFrame_cases now with ⟨_, hp⟩ | ⟨hdue, hh, _⟩ | ⟨_, _, hp⟩
    · rw [hp]
    · simp only [playsReal, hdue, hh, Bool.and_self, Bool.true_eq_false] at h
    · rw [hp]
      rfl
  | markStreamEnded => rfl

/-- The milliseconds between two clock readings less than 2^32 / 1000 samples apart. -/
theorem latency_toNat {now arrival : U32} (hle : arrival.toNat ≤ now.toNat)
    (hlt : (now.toNat - arrival.toNat) * 1000 < 2 ^ 32) :
    ((now - arrival) * 1000 / BitVec.ofNat 32 kSampleRateHz).toNat =
      (now.toNat - arrival.toNat) / 8 := by
  have hsub : (now - arrival).toNat = now.toNat - arrival.toNat := BitVec.toNat_sub_of_le hle
  rw [BitVec.toNat_udiv, BitVec.toNat_mul, hsub]
  show (now.toNat - arrival.toNat) * 1000 % 2 ^ 32 / 8000 = _
  rw [Nat.mod_eq_of_lt hlt]
  omega

end JitterBuffer

section Run

variable {options : Options} {junk : Vector (Vector U8 kSlotPayloadBytes) kCapacity}
  {calls : List Call} {clock tick : Nat}

/-- A pull of a paced run that plays a packet comes less than 6720 samples after the packet, and appends
the milliseconds between them if statistics are collected. -/
theorem Paced.latency (h : Paced P options junk calls clock tick) {m n : Nat}
    (hm : Outputs P options junk calls m n) :
    ∃ packet arrival now, calls[n]? = some (.push packet arrival) ∧ calls[m]? = some (.pull now) ∧
      arrival.toNat ≤ now.toNat ∧ now.toNat < arrival.toNat + 6720 ∧
      (JitterBuffer.next ((jitterSystem P options junk).run (calls.take m)) (.pull now)).latencySamplesMs =
        if options.collectStats then
          JitterBuffer.latencySamplesMs ((jitterSystem P options junk).run (calls.take m)) ++
            [(now - arrival) * 1000 / BitVec.ofNat 32 kSampleRateHz]
        else JitterBuffer.latencySamplesMs ((jitterSystem P options junk).run (calls.take m)) := by
  obtain ⟨frame, hframe⟩ := hm
  obtain ⟨call, hcall, _, hsource⟩ := tracked_getElem? hframe
  obtain ⟨now, rfl, hdue, hh, hwriter⟩ := Tracked.source_eq_some hsource
  obtain ⟨before, hbefore⟩ := h.at_pull hcall
  have hpunctual := hbefore.punctual
  have hattr := attributed_run (P := P) options junk (calls.take m)
  have hoptions := run_options (P := P) options junk (calls.take m)
  have hbuffer := (tracked_buffer (P := P) options junk (calls.take m)).1
  rw [← hbuffer] at hpunctual hoptions ⊢
  generalize (trackedSystem P options junk).run (calls.take m) = t at *
  obtain ⟨hocc, _⟩ := holds_iff.mp hh
  obtain ⟨packet, arrival, hpush, hholds, _⟩ := hattr _ hocc
  obtain ⟨harrived, htick, _⟩ := hpunctual.slot _ hocc
  have hclock := hpunctual.clock_le
  rw [hholds.arrivalSamples] at harrived htick
  rw [hwriter] at hpush
  refine ⟨packet, arrival, now, ?_, hcall, by omega, htick, ?_⟩
  · exact (getElem?_of_take hpush).2
  · show (t.buffer.tryPullDueFrame now).2.latencySamplesMs = _
    rw [tryPullDueFrame_of_holds hdue hh, ← hoptions, ← hholds.arrivalSamples]
    rfl

/-- A call that plays no packet records no latency. -/
theorem latency_unchanged {m : Nat} {call : Call} (hcall : calls[m]? = some call)
    (hm : ∀ n, ¬ Outputs P options junk calls m n) :
    (JitterBuffer.next ((jitterSystem P options junk).run (calls.take m)) call).latencySamplesMs =
      JitterBuffer.latencySamplesMs ((jitterSystem P options junk).run (calls.take m)) := by
  refine next_latency_of_not_playsReal ?_
  rw [← (tracked_buffer (P := P) options junk (calls.take m)).1]
  cases hplays : ((trackedSystem P options junk).run (calls.take m)).buffer.playsReal call with
  | false => rfl
  | true =>
    -- the call would output what its bookkeeping names
    obtain ⟨n, hsource⟩ : ∃ n, ((trackedSystem P options junk).run (calls.take m)).source call =
        some n := ⟨_, if_pos hplays⟩
    exact absurd (outputs_of_getElem? hcall hsource) (hm n)

end Run

/-- Push `n`, made at `arrival`, is output by a pull at most `bound` samples later. -/
def PlayedWithin (P : Platform) (options : Options)
    (junk : Vector (Vector U8 kSlotPayloadBytes) kCapacity) (calls : List Call) (n : Nat) (arrival : U32)
    (bound : Nat) : Prop :=
  ∃ m now, calls[m]? = some (.pull now) ∧ Outputs P options junk calls m n ∧
    arrival.toNat ≤ now.toNat ∧ now.toNat ≤ arrival.toNat + bound

/-- No call of the run is as late as `time`. -/
def EndsBefore (calls : List Call) (time : Nat) : Prop :=
  ∀ call ∈ calls, ∀ c, call.clock = some c → c.toNat < time

/-- `latency_samples_ms()` after a run. -/
def latencies (P : Platform) (options : Options)
    (junk : Vector (Vector U8 kSlotPayloadBytes) kCapacity) (calls : List Call) : List U32 :=
  JitterBuffer.latencySamplesMs ((jitterSystem P options junk).run calls)

/-- A stored packet of a paced run is played within 6720 samples of its arrival unless the run ends
before, and with `collect_stats` every pull that plays a packet, and no other call, records the
milliseconds that the packet has waited, without overflow. -/
theorem bounded_latency {P : Platform} {options : Options}
    {junk : Vector (Vector U8 kSlotPayloadBytes) kCapacity} {calls : List Call} {clock tick : Nat}
    (h : Paced P options junk calls clock tick) :
    (∀ n packet arrival, calls[n]? = some (.push packet arrival) →
      JitterBuffer.stores ((jitterSystem P options junk).run (calls.take n)) packet arrival = true →
        PlayedWithin P options junk calls n arrival 6720 ∨ EndsBefore calls (arrival.toNat + 6720)) ∧
    ∀ m call, calls[m]? = some call →
      (∀ n, Outputs P options junk calls m n →
        ∃ packet arrival now, calls[n]? = some (.push packet arrival) ∧ call = .pull now ∧
          arrival.toNat ≤ now.toNat ∧ (now.toNat - arrival.toNat) * 1000 < 2 ^ 32 ∧
          (options.collectStats = true → ∃ latency : U32,
            latencies P options junk (calls.take (m + 1)) =
              latencies P options junk (calls.take m) ++ [latency] ∧
            latency.toNat = (now.toNat - arrival.toNat) / 8)) ∧
      ((∀ n, ¬ Outputs P options junk calls m n) →
        latencies P options junk (calls.take (m + 1)) = latencies P options junk (calls.take m)) := by
  refine ⟨fun n packet arrival hcall hstores => ?_, fun m call hcall => ?_⟩
  · rcases output_or_pending hcall hstores with ⟨m, hm⟩ | hpending
    · left
      obtain ⟨packet', arrival', now, hpush, hpull, harrived, htick, _⟩ := h.latency hm
      obtain ⟨rfl, rfl⟩ := Call.push.inj (Option.some.inj (hcall.symm.trans hpush))
      exact ⟨m, now, hpull, hm, harrived, Nat.le_of_lt htick⟩
    · -- the packet is still stored when the run ends
      right
      have hpunctual := h.punctual
      rw [← (tracked_buffer options junk calls).1] at hpunctual
      obtain ⟨_, htick, _⟩ := hpunctual.slot _ hpending.occupied
      rw [hpending.holds.arrivalSamples] at htick
      have hclock := hpunctual.clock_le
      intro call hmem c hc
      have hle := h.le_clock call hmem c hc
      omega
  · have htake : calls.take (m + 1) = calls.take m ++ [call] := by
      rw [List.take_add_one, hcall]
      rfl
    have hnext : latencies P options junk (calls.take (m + 1)) =
        (JitterBuffer.next ((jitterSystem P options junk).run (calls.take m)) call).latencySamplesMs := by
      rw [latencies, htake, DetSystem.run_snoc]
      rfl
    rw [hnext]
    refine ⟨fun n hm => ?_, latency_unchanged hcall⟩
    obtain ⟨packet, arrival, now, hpush, hpull, harrived, htick, hrecord⟩ := h.latency hm
    obtain rfl := Option.some.inj (hcall.symm.trans hpull)
    have hsmall : (now.toNat - arrival.toNat) * 1000 < 2 ^ 32 := by omega
    refine ⟨packet, arrival, now, hpush, rfl, harrived, hsmall, fun hcollect => ?_⟩
    rw [if_pos hcollect] at hrecord
    exact ⟨_, hrecord, latency_toNat harrived hsmall⟩

/-- A packet that arrives at 0 is played at 800 and has waited 100 ms. -/
theorem bounded_latency_example :
    ∃ latency : U32,
      latencies (exactPlatform .little fun _ sample => sample) { collectStats := true }
        (Vector.replicate _ (Vector.replicate _ 0))
        [.push (silentPacket 0) 0, .pull 160, .pull 320, .pull 480, .pull 640, .pull 800] =
      latencies (exactPlatform .little fun _ sample => sample) { collectStats := true }
        (Vector.replicate _ (Vector.replicate _ 0))
        [.push (silentPacket 0) 0, .pull 160, .pull 320, .pull 480, .pull 640] ++ [latency] ∧
      latency.toNat = 100 := by
  have harrived : Paced (exactPlatform .little fun _ sample => sample) { collectStats := true }
      (Vector.replicate _ (Vector.replicate _ 0)) ([] ++ [.push (silentPacket 0) 0]) 0 160 :=
    .push (.start (Nat.zero_le 160) le_rfl) (silentPacket 0) le_rfl (by decide) (by decide)
  have h : Paced (exactPlatform .little fun _ sample => sample) { collectStats := true }
      (Vector.replicate _ (Vector.replicate _ 0))
      ([] ++ [.push (silentPacket 0) 0] ++ [.pull 160] ++ [.pull 320] ++ [.pull 480] ++ [.pull 640] ++
        [.pull 800]) 800 800 := by
    -- the pulls in front of 800 return false
    refine .again (.rest (.rest (.rest (.rest harrived ?_ ?_) ?_ ?_) ?_ ?_) ?_ ?_) ?_ ?_ <;>
      decide +kernel
  obtain ⟨packet, arrival, now, hpush, hpull, _, _, hrecord⟩ :=
    ((bounded_latency h).2 5 (.pull 800) rfl).1 0 (outputs_of_source (by decide +kernel))
  obtain ⟨_, rfl⟩ := Call.push.inj (Option.some.inj hpush)
  obtain rfl := Call.pull.inj hpull
  exact hrecord rfl

end RtpStreamer
