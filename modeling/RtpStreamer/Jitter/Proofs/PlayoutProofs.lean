import RtpStreamer.Jitter.Proofs.RefinementProofs

/-!
# What a run plays, in closed form

A run of the reference has played, at every position before its cursor, the packet its map has there or
a concealed frame. Through the refinement the same holds of the jitter buffer, whose counter of lost
frames counts the positions without a packet.
-/

namespace RtpStreamer

variable {P : Platform}

/-! ## The playout -/

theorem playout_length (options : Options) (real : Nat → Option Frame) (n : Nat) :
    (playout P options real n).frames.length = n := by
  induction n with
  | zero => rfl
  | succ n ih =>
    unfold playout
    cases real n with
    | some frame => simp [ih]
    | none => simp [ih]

/-- The playout of `n` frames depends only on the packets of the first `n` positions. -/
theorem playout_congr (options : Options) {real real' : Nat → Option Frame} (n : Nat)
    (h : ∀ i, i < n → real i = real' i) :
    playout P options real n = playout P options real' n := by
  induction n with
  | zero => rfl
  | succ n ih =>
    unfold playout
    rw [ih fun i hi => h i (by omega), h n (by omega)]

/-- Later frames leave the earlier ones as they are. -/
theorem playout_prefix (options : Options) (real : Nat → Option Frame) {i n : Nat} (h : i ≤ n) :
    (playout P options real i).frames <+: (playout P options real n).frames := by
  induction n with
  | zero =>
    obtain rfl : i = 0 := by omega
    exact List.prefix_refl _
  | succ n ih =>
    by_cases hi : i = n + 1
    · subst hi
      exact List.prefix_refl _
    · refine (ih (by omega)).trans ?_
      rw [playout]
      cases real n with
      | some frame => exact List.prefix_append _ _
      | none => exact List.prefix_append _ _

/-- Position `i` holds the frame of its packet, or the concealment that is due there. -/
theorem playout_getElem? (options : Options) (real : Nat → Option Frame) {i n : Nat} (h : i < n) :
    (playout P options real n).frames[i]? = some ((real i).getD
      (Reference.concealment P options (playout P options real i).lastReal
        ((playout P options real i).sinceReal + 1))) := by
  have hlen := playout_length (P := P) options real i
  obtain ⟨rest, hrest⟩ := playout_prefix (P := P) options real (show i + 1 ≤ n from h)
  rw [← hrest, List.getElem?_append_left (by rw [playout_length]; omega), playout]
  cases real i with
  | some frame => simp [hlen]
  | none => simp [hlen]

namespace Reference

/-- The frames of the packets that the map has. -/
def realFrames (r : Reference P) (i : Nat) : Option Frame :=
  (r.accepted i).map fun packet => decodePayload P.byteOrder packet.payloadType packet.payload

theorem accepts_iff (r : Reference P) (index : Int) : r.accepts index = true ↔
    (r.cursor : Int) ≤ index ∧ index < r.cursor + 32 ∧ r.accepted index = none := by
  simp only [accepts, Bool.and_eq_true, decide_eq_true_eq, Option.isNone_iff_eq_none, and_assoc]

theorem push_accepted (r : Reference P) (packet : Packet) (arrival : U32) :
    (r.push packet arrival).accepted =
      if r.accepts (r.indexOf packet.sequenceNumber) then
        Function.update r.accepted (r.indexOf packet.sequenceNumber) (some packet)
      else r.accepted := rfl

/-- What the map has after a push it had before, or it is the packet pushed, in its window. -/
theorem of_push_accepted {r : Reference P} {packet packet' : Packet} {arrival : U32} {i : Int}
    (h : (r.push packet arrival).accepted i = some packet') :
    r.accepted i = some packet' ∨ (packet' = packet ∧ i = r.indexOf packet.sequenceNumber ∧
      (r.cursor : Int) ≤ i ∧ i < r.cursor + 32) := by
  rw [push_accepted] at h
  by_cases hacc : r.accepts (r.indexOf packet.sequenceNumber) = true
  · rw [if_pos hacc] at h
    by_cases heq : i = r.indexOf packet.sequenceNumber
    · subst heq
      rw [Function.update_self] at h
      obtain ⟨hlo, hhi, _⟩ := (r.accepts_iff _).mp hacc
      exact Or.inr ⟨(Option.some.inj h).symm, rfl, hlo, hhi⟩
    · rw [Function.update_of_ne heq] at h
      exact Or.inl h
  · rw [if_neg hacc] at h
    exact Or.inl h

/-- A push takes nothing out of the map. -/
theorem push_accepted_of_some (r : Reference P) (packet : Packet) (arrival : U32) {i : Int}
    {packet' : Packet} (h : r.accepted i = some packet') :
    (r.push packet arrival).accepted i = some packet' := by
  rw [push_accepted]
  by_cases hacc : r.accepts (r.indexOf packet.sequenceNumber) = true
  · rw [if_pos hacc, Function.update_of_ne, h]
    rintro rfl
    rw [((r.accepts_iff _).mp hacc).2.2] at h
    exact absurd h (by simp)
  · rw [if_neg hacc, h]

/-- A push changes the map from the cursor on only. -/
theorem push_accepted_of_lt (r : Reference P) (packet : Packet) (arrival : U32) {i : Int}
    (h : i < r.cursor) : (r.push packet arrival).accepted i = r.accepted i := by
  cases hacc : r.accepted i with
  | some packet' => exact r.push_accepted_of_some packet arrival hacc
  | none =>
    by_contra hne
    obtain ⟨packet', hsome⟩ := Option.ne_none_iff_exists'.mp hne
    rcases of_push_accepted hsome with hold | ⟨_, _, hlo, _⟩
    · rw [hacc] at hold
      exact absurd hold (by simp)
    · omega

/-- After a push in its window the map has a packet for its frame. -/
theorem push_accepted_isSome (r : Reference P) (packet : Packet) (arrival : U32)
    (hlo : (r.cursor : Int) ≤ r.indexOf packet.sequenceNumber)
    (hhi : r.indexOf packet.sequenceNumber < r.cursor + 32) :
    ((r.push packet arrival).accepted (r.indexOf packet.sequenceNumber)).isSome = true := by
  cases hacc : r.accepted (r.indexOf packet.sequenceNumber) with
  | some packet' =>
    rw [r.push_accepted_of_some packet arrival hacc]
    rfl
  | none =>
    rw [push_accepted, if_pos ((r.accepts_iff _).mpr ⟨hlo, hhi, hacc⟩), Function.update_self]
    rfl

/-- A pull either does nothing, or plays the packet at the cursor, or conceals. -/
theorem pull_cases (r : Reference P) (now : U32) :
    r.pull now = (none, r) ∨
    (∃ packet, r.accepted r.cursor = some packet ∧ r.pull now =
      (some (decodePayload P.byteOrder packet.payloadType packet.payload),
        { r with
          cursor := r.cursor + 1
          lastReal := some (decodePayload P.byteOrder packet.payloadType packet.payload)
          sinceReal := 0 })) ∨
    (r.accepted r.cursor = none ∧ r.pull now =
      (some (concealment P r.options r.lastReal (r.sinceReal + 1)),
        { r with cursor := r.cursor + 1, sinceReal := r.sinceReal + 1 })) := by
  unfold pull frameAtCursor
  cases r.isDue now with
  | false => exact Or.inl rfl
  | true =>
    cases hacc : r.accepted r.cursor with
    | some packet => exact Or.inr (Or.inl ⟨packet, rfl, by simp only [reduceIte]⟩)
    | none => exact Or.inr (Or.inr ⟨rfl, by simp only [reduceIte]⟩)

/-- A pull advances the cursor by the frame it plays. -/
theorem pull_cursor (r : Reference P) (now : U32) :
    (r.pull now).2.cursor = if r.isDue now then r.cursor + 1 else r.cursor := by
  unfold pull
  by_cases hdue : r.isDue now = true
  · rw [if_pos hdue, if_pos hdue]
    cases r.accepted r.cursor <;> rfl
  · rw [if_neg hdue, if_neg hdue]

/-- The outputs of a run, given by the map at its end. -/
structure Played (options : Options) (outputs : List Frame) (r : Reference P) : Prop where
  options_eq : r.options = options
  playout_eq : playout P options r.realFrames r.cursor =
    { frames := outputs, lastReal := r.lastReal, sinceReal := r.sinceReal }

theorem Played.next {options : Options} {outputs : List Frame} {r : Reference P}
    (h : Played options outputs r) (call : Call) :
    Played options (outputs ++ (r.returned call).toList) (r.next call) := by
  obtain ⟨hoptions, hplayout⟩ := h
  cases call with
  | push packet arrival =>
    refine ⟨hoptions, ?_⟩
    show playout P options (r.push packet arrival).realFrames r.cursor =
      { frames := outputs ++ [], lastReal := r.lastReal, sinceReal := r.sinceReal }
    rw [List.append_nil, ← hplayout]
    refine playout_congr options _ fun i hi => ?_
    unfold realFrames
    rw [push_accepted_of_lt r packet arrival (by omega)]
  | pull now =>
    show Played options (outputs ++ ((r.pull now).1).toList) (r.pull now).2
    rcases r.pull_cases now with hp | ⟨packet, hacc, hp⟩ | ⟨hacc, hp⟩ <;> rw [hp]
    · refine ⟨hoptions, ?_⟩
      show _ = Playout.mk (outputs ++ []) _ _
      rw [List.append_nil]
      exact hplayout
    · refine ⟨hoptions, ?_⟩
      have hreal : r.realFrames r.cursor =
          some (decodePayload P.byteOrder packet.payloadType packet.payload) := by
        unfold realFrames
        rw [hacc]
        rfl
      show playout P options r.realFrames (r.cursor + 1) = _
      rw [playout, hplayout, hreal]
      rfl
    · refine ⟨hoptions, ?_⟩
      have hreal : r.realFrames r.cursor = none := by
        unfold realFrames
        rw [hacc]
        rfl
      show playout P options r.realFrames (r.cursor + 1) = _
      rw [playout, hplayout, hreal, ← hoptions]
      rfl
  | markStreamEnded =>
    refine ⟨hoptions, ?_⟩
    show _ = Playout.mk (outputs ++ []) _ _
    rw [List.append_nil]
    exact hplayout

theorem played_run (options : Options) (calls : List Call) :
    Played options (((referenceSystem P options).trace calls).filterMap id)
      ((referenceSystem P options).run calls) := by
  induction calls using List.reverseRecOn with
  | nil => exact ⟨rfl, rfl⟩
  | append_singleton calls call ih =>
    have h := ih.next call
    rw [DetSystem.trace_snoc, DetSystem.run_snoc, List.filterMap_append]
    have hlist : [(referenceSystem P options).obs ((referenceSystem P options).run calls)
        call].filterMap id = (Reference.returned ((referenceSystem P options).run calls)
          call).toList := by
      show [Reference.returned ((referenceSystem P options).run calls) call].filterMap id = _
      cases Reference.returned ((referenceSystem P options).run calls) call <;> rfl
    rw [hlist]
    exact h

end Reference

namespace JitterBuffer

/-! ## The frames counted as lost -/

theorem push_lost (jb : JitterBuffer P) (packet : Packet) (arrival : U32) :
    (jb.push packet arrival).counts.lost = jb.counts.lost := by
  unfold push
  rcases place_cases (jb.noteArrival packet arrival) packet arrival with
    ⟨_, hp⟩ | ⟨_, hp⟩ | ⟨_, _, _, hp⟩ | ⟨_, _, _, hp⟩ <;> rw [hp] <;> rfl

/-- The positions before `n` that have no packet. -/
def missing (real : Nat → Option Frame) (n : Nat) : Nat :=
  (List.range n).countP fun i => (real i).isNone

theorem missing_succ (real : Nat → Option Frame) (n : Nat) :
    missing real (n + 1) = missing real n + (real n).isNone.toNat := by
  unfold missing
  rw [List.range_succ, List.countP_append, List.countP_singleton]
  cases (real n).isNone <;> rfl

theorem missing_congr {real real' : Nat → Option Frame} {n : Nat}
    (h : ∀ i, i < n → real i = real' i) : missing real n = missing real' n := by
  unfold missing
  refine List.countP_congr fun i hi => ?_
  rw [h i (List.mem_range.mp hi)]

/-- The counter of lost frames against the map of the reference. -/
theorem lost_next {jb : JitterBuffer P} {r : Reference P} (h : Matches jb r)
    (hlost : jb.counts.lost = missing r.realFrames r.cursor) (call : Call) :
    (jb.next call).counts.lost = missing (r.next call).realFrames (r.next call).cursor := by
  cases call with
  | push packet arrival =>
    show (jb.push packet arrival).counts.lost =
      missing (r.push packet arrival).realFrames r.cursor
    rw [push_lost, hlost]
    refine missing_congr fun i hi => ?_
    unfold Reference.realFrames
    rw [r.push_accepted_of_lt packet arrival (by omega)]
  | pull now =>
    show (jb.tryPullDueFrame now).2.counts.lost =
      missing (r.pull now).2.realFrames (r.pull now).2.cursor
    rcases h.pull_cases now with ⟨hp, hr⟩ | ⟨_, _, hacc, hp, hr⟩ | ⟨_, hacc, hp, hr⟩ <;> rw [hp, hr]
    · exact hlost
    · -- the map has the packet of the cursor
      obtain ⟨packet, hacc⟩ := Option.isSome_iff_exists.mp hacc
      show jb.counts.lost = missing r.realFrames (r.cursor + 1)
      rw [missing_succ, Reference.realFrames, hacc, hlost]
      rfl
    · show jb.counts.lost + 1 = missing r.realFrames (r.cursor + 1)
      rw [missing_succ, Reference.realFrames, hacc, hlost]
      rfl
  | markStreamEnded => exact hlost

theorem lost_run (options : Options) (junk : Vector (Vector U8 kSlotPayloadBytes) kCapacity)
    (calls : List Call) :
    (counts ((jitterSystem P options junk).run calls)).lost =
      missing (Reference.realFrames ((referenceSystem P options).run calls))
        (Reference.cursor ((referenceSystem P options).run calls)) := by
  induction calls using List.reverseRecOn with
  | nil => rfl
  | append_singleton calls call ih =>
    rw [DetSystem.run_snoc, DetSystem.run_snoc]
    exact lost_next (matches_run options junk calls) ih call

end JitterBuffer

end RtpStreamer
