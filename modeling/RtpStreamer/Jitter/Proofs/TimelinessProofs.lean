import RtpStreamer.Jitter.Proofs.LatencyProofs
import RtpStreamer.Jitter.Proofs.StreamProofs

/-!
# What a network that keeps its time loses, and nothing else, is concealed

The estimate moves the depth of the buffer between 100 and 200 ms, from packet to packet. Whatever it does,
of a stream whose packets are lost or arrive at most 100 ms behind their time, and not too far ahead of it,
every packet that arrives is played in its place, and every other one is concealed there. The playout thread
keeps up with the clock, and so the window of 32 frames is never left: a packet may be 420 ms ahead, less
the longest gap that the losses leave.
-/

namespace RtpStreamer

open JitterBuffer

variable {P : Platform} {options : Options} {junk : Vector (Vector U8 kSlotPayloadBytes) kCapacity}
  {n : Nat} {first : U16} {packets : Fin n → Packet} {arrives : Fin n → Bool} {gap origin : Nat}

/-- A call that keeps the time of the stream. Packet 0 arrives first, at `origin`, and the time of packet `i`
is 20 ms later for each frame. A packet that arrives at all is there 100 ms behind its time, and before the
stream is ended. -/
def TimelyCall (packets : Fin n → Packet) (arrives : Fin n → Bool) (gap origin : Nat)
    (before : List Call) : Call → Prop
  | .push packet arrival =>
    (pushedPackets before = [] → arrival.toNat = origin) ∧
      ∀ i, packet = packets i →
        arrives i = true ∧ origin + 160 * (i.val + gap) ≤ arrival.toNat + 3360
  | .pull now => pushedPackets before ≠ [] → ∀ i : Fin n, arrives i = true →
      origin + 160 * i.val + 800 ≤ now.toNat → packets i ∈ pushedPackets before
  | .markStreamEnded => ∀ i, arrives i = true → packets i ∈ pushedPackets before

instance (packets : Fin n → Packet) (arrives : Fin n → Bool) (gap origin : Nat) (before : List Call) :
    (call : Call) → Decidable (TimelyCall packets arrives gap origin before call)
  | .push _ _ => inferInstanceAs (Decidable (_ ∧ _))
  | .pull _ => inferInstanceAs (Decidable (_ → _))
  | .markStreamEnded => inferInstanceAs (Decidable (∀ _, _))

/-- The packets of `arrives` arrive in their time, some of them more than once. The others are lost, at most
`gap` in a row. -/
structure Timely (packets : Fin n → Packet) (arrives : Fin n → Bool) (gap origin : Nat)
    (calls : List Call) : Prop where
  gap_le : gap ≤ 21
  few : ∀ k, k + gap < n → ∃ i : Fin n, k ≤ i.val ∧ i.val ≤ k + gap ∧ arrives i = true
  timely : ∀ before call, before ++ [call] <+: calls → TimelyCall packets arrives gap origin before call

theorem Timely.initial {calls calls' : List Call} (h : Timely packets arrives gap origin calls')
    (hinit : calls <+: calls') : Timely packets arrives gap origin calls :=
  ⟨h.gap_le, h.few, fun before call hb => h.timely before call (hb.trans hinit)⟩

theorem timely_of_forall (hgap : gap ≤ 21)
    (hfew : ∀ k, k + gap < n → ∃ i : Fin n, k ≤ i.val ∧ i.val ≤ k + gap ∧ arrives i = true)
    {calls : List Call}
    (h : ∀ m (hm : m < calls.length), TimelyCall packets arrives gap origin (calls.take m) calls[m]) :
    Timely packets arrives gap origin calls := by
  refine ⟨hgap, hfew, fun before call hinit => ?_⟩
  obtain ⟨rest, rfl⟩ := hinit
  have hm := h before.length (by simp)
  simpa using hm

/-- What holds along a timely run, in terms of the reference: what was pushed was accepted, and the cursor
keeps up with the ticks. -/
structure OnTime (packets : Fin n → Packet) (arrives : Fin n → Bool) (origin : Nat) (calls : List Call)
    (tick : Nat) (r : Reference P) : Prop where
  firstArrival : r.started = true → r.firstArrival.toNat = origin
  pushed : ∀ i, packets i ∈ pushedPackets calls →
    (i.val : Int) ≤ r.highest ∧ (r.accepted i.val).isSome = true
  arrived : ∀ i : Fin n, (r.accepted i.val).isSome = true → arrives i = true
  frontier : 0 ≤ r.highest → ∃ i : Fin n, r.highest = i.val ∧ arrives i = true
  played : ∀ i : Fin n, i.val < r.cursor → arrives i = true → (r.accepted i.val).isSome = true
  keptUp : r.started = true → ∀ i : Fin n, arrives i = true → origin + 160 * i.val + 1760 ≤ tick →
    i.val < r.cursor
  ended : r.ended = true → ∀ i, arrives i = true → packets i ∈ pushedPackets calls

theorem onTime_init (options : Options) (tick : Nat) :
    OnTime packets arrives origin [] tick (refRun P options []) where
  firstArrival := fun h => absurd h Bool.false_ne_true
  pushed := fun _ h => absurd h List.not_mem_nil
  arrived := fun _ h => absurd h Bool.false_ne_true
  frontier := fun h => absurd h (Int.negSucc_not_nonneg 0).mp
  played := fun _ h => absurd h (Nat.not_lt_zero _)
  keptUp := fun h => absurd h Bool.false_ne_true
  ended := fun h => absurd h Bool.false_ne_true

section Step

variable {calls : List Call} {tick : Nat} {r : Reference P}

theorem Numbered.injective (hnum : Numbered first packets) {i j : Fin n} (h : packets i = packets j) :
    i = j := by
  have hsequence := congrArg Packet.sequenceNumber h
  rw [hnum.2 i, hnum.2 j] at hsequence
  have hle := hnum.1
  have hi := i.isLt
  have hj := j.isLt
  apply Fin.ext
  bv_omega

/-- A packet that arrives in its time finds the cursor at most 31 frames behind it. -/
theorem OnTime.push (h : OnTime packets arrives origin calls tick r) (hnum : Numbered first packets)
    (hhears : HearsStream first packets calls r) (hgap : gap ≤ 21)
    (hfew : ∀ k, k + gap < n → ∃ i : Fin n, k ≤ i.val ∧ i.val ≤ k + gap ∧ arrives i = true)
    {i : Fin n} {arrival : U32} (harrives : arrives i = true)
    (hfirst : pushedPackets calls = [] → i.val = 0 ∧ arrival.toNat = origin)
    (hahead : origin + 160 * (i.val + gap) ≤ arrival.toNat + 3360) (hle : arrival.toNat ≤ tick)
    (htick : tick ≤ arrival.toNat + 160) :
    OnTime packets arrives origin (calls ++ [.push (packets i) arrival]) tick
      (r.push (packets i) arrival) := by
  have hunstarted (hs : r.started = false) : pushedPackets calls = [] := by
    by_contra hne
    rw [hhears.started.mpr hne] at hs
    exact absurd hs (by decide)
  have hindex : r.indexOf (packets i).sequenceNumber = i.val :=
    indexOf_numbered hnum hhears.base fun hs => (hfirst (hunstarted hs)).1
  have hwindow : i.val < r.cursor + 32 := by
    by_contra hfar
    have hi := i.isLt
    cases hs : r.started with
    | false =>
      have hzero := (hfirst (hunstarted hs)).1
      omega
    | true =>
      -- a packet that arrives, not much above `i - 32`, was due at the tick before
      obtain ⟨j, hlow, hhigh, hj⟩ := hfew (i.val - 32) (by omega)
      have hold := h.keptUp hs j hj (by omega)
      omega
  have haccepted : ((r.push (packets i) arrival).accepted i.val).isSome = true := by
    rcases Nat.lt_or_ge i.val r.cursor with hlt | hge
    · rw [r.push_accepted_of_lt _ _ (by omega)]
      exact h.played i hlt harrives
    · rw [← hindex]
      exact r.push_accepted_isSome _ _ (by omega) (by omega)
  have hkeep {k : Int} (hk : (r.accepted k).isSome = true) :
      ((r.push (packets i) arrival).accepted k).isSome = true := by
    obtain ⟨packet, hpacket⟩ := Option.isSome_iff_exists.mp hk
    rw [r.push_accepted_of_some _ _ hpacket]
    rfl
  have hhighest : (r.push (packets i) arrival).highest = max r.highest i.val := by
    show max r.highest (r.indexOf (packets i).sequenceNumber) = _
    rw [hindex]
  have hfirstArrival : (r.push (packets i) arrival).firstArrival.toNat = origin := by
    show (if r.started then r.firstArrival else arrival).toNat = origin
    cases hs : r.started with
    | true => exact h.firstArrival hs
    | false => exact (hfirst (hunstarted hs)).2
  refine ⟨fun _ => hfirstArrival, ?_, ?_, ?_, fun j hj hja => hkeep (h.played j hj hja), ?_, ?_⟩
  · intro j hj
    rw [pushedPackets_push, List.mem_append, List.mem_singleton] at hj
    rw [hhighest]
    rcases hj with hj | hj
    · obtain ⟨hle, hsome⟩ := h.pushed j hj
      exact ⟨by omega, hkeep hsome⟩
    · obtain rfl := hnum.injective hj
      exact ⟨by omega, haccepted⟩
  · intro j hj
    obtain ⟨packet, hpacket⟩ := Option.isSome_iff_exists.mp hj
    rcases Reference.of_push_accepted hpacket with hold | ⟨_, hj, _⟩
    · exact h.arrived j (Option.isSome_iff_exists.mpr ⟨packet, hold⟩)
    · have hji : j = i := Fin.ext (by omega)
      rw [hji]
      exact harrives
  · intro _
    rw [hhighest]
    rcases le_total r.highest i.val with hnew | hold
    · exact ⟨i, max_eq_right hnew, harrives⟩
    · rw [max_eq_left hold]
      exact h.frontier (by omega)
  · intro _ j hja hj
    cases hs : r.started with
    | true => exact h.keptUp hs j hja hj
    | false =>
      have horigin := (hfirst (hunstarted hs)).2
      omega
  · intro hended j hja
    rw [pushedPackets_push]
    exact List.mem_append_left _ (h.ended hended j hja)

theorem OnTime.markStreamEnded (h : OnTime packets arrives origin calls tick r)
    (hall : ∀ i, arrives i = true → packets i ∈ pushedPackets calls) :
    OnTime packets arrives origin (calls ++ [.markStreamEnded]) tick (r.next .markStreamEnded) := by
  have hsame : pushedPackets (calls ++ [.markStreamEnded]) = pushedPackets calls :=
    pushedPackets_of_not_push calls rfl
  refine ⟨h.firstArrival, ?_, h.arrived, h.frontier, h.played, h.keptUp, ?_⟩
  · rw [hsame]
    exact h.pushed
  · rw [hsame]
    exact fun _ => hall

/-- A frame that is due has its packet, if that arrives at all. -/
theorem OnTime.accepted_of_due (h : OnTime packets arrives origin calls tick r)
    (hhears : HearsStream first packets calls r) {jb : JitterBuffer P} (hm : Matches jb r) {clock : Nat}
    {now : U32} (hp : jb.Punctual clock now.toNat) (hbound : now.toNat < 2 ^ 31)
    (hbehind : pushedPackets calls ≠ [] → ∀ i : Fin n, arrives i = true →
      origin + 160 * i.val + 800 ≤ now.toNat → packets i ∈ pushedPackets calls)
    (hdue : jb.isDue now = true) {i : Fin n} (hi : i.val = r.cursor) (harrives : arrives i = true) :
    (r.accepted i.val).isSome = true := by
  obtain ⟨hs, hle, hwhen⟩ := isDue_iff.mp hdue
  rw [hm.inv.cursor_eq, ← hm.highest, ← hm.cursor] at hle
  have hlt := hhears.highest_lt
  have hstarted : r.started = true := hm.started.trans hs
  refine (h.pushed i ?_).2
  rcases hwhen with hended | hdeadline
  · exact h.ended (hm.ended.trans hended) i harrives
  · have hfirst := hp.first_le hs
    have hclock := hp.clock_le
    have hilt := i.isLt
    obtain ⟨hlow, _⟩ := deadline_bounds hm.inv hp.depth (by omega)
    have horigin := h.firstArrival hstarted
    rw [hm.firstArrival] at horigin
    have hcursorEq := hm.cursor
    rw [BitVec.le_def] at hdeadline
    exact hbehind (hhears.started.mp hstarted) i harrives (by omega)

/-- When the loop of a tick ends, every packet whose last deadline has passed has been played. -/
theorem OnTime.caught_up (h : OnTime packets arrives origin calls tick r)
    (hhears : HearsStream first packets calls r) {jb : JitterBuffer P} (hm : Matches jb r) {clock : Nat}
    {now : U32} (hp : jb.Punctual clock now.toNat) (hbound : now.toNat < 2 ^ 31)
    (hbehind : pushedPackets calls ≠ [] → ∀ i : Fin n, arrives i = true →
      origin + 160 * i.val + 800 ≤ now.toNat → packets i ∈ pushedPackets calls)
    (hloop : jb.loopEnds now = true) (hs : r.started = true) {i : Fin n} (harrives : arrives i = true)
    (hi : origin + 160 * i.val + 1600 ≤ now.toNat) : i.val < (r.pull now).2.cursor := by
  have hmono : r.cursor ≤ (r.pull now).2.cursor := by
    rw [r.pull_cursor]
    split_ifs <;> omega
  obtain ⟨hle, _⟩ := h.pushed i (hbehind (hhears.started.mp hs) i harrives (by omega))
  have hjs : jb.started = true := hm.started.symm.trans hs
  have hfirst := hp.first_le hjs
  have hclock := hp.clock_le
  have horigin := h.firstArrival hs
  rw [hm.firstArrival] at horigin
  unfold loopEnds at hloop
  rcases Bool.or_eq_true_iff.mp hloop with hnone | hfinished
  · have hlt := JitterBuffer.caught_up jb hm.inv hp.depth (i := i.val) (by omega)
      (Option.isNone_iff_eq_none.mp hnone) (by rw [← hm.highest]; exact hle) (by omega)
    have hcursor := hm.cursor
    omega
  · -- the stream is over
    have hm' : Matches (jb.tryPullDueFrame now).2 (r.pull now).2 := hm.next (.pull now)
    have hhighest : (r.pull now).2.highest = r.highest :=
      (next_of_not_push r (.pull now) fun _ _ => by simp).2.2.1
    have hs' : (jb.tryPullDueFrame now).2.started = true :=
      (pull_firstArrivalSamples jb now).2.1.trans hjs
    unfold finished at hfinished
    rw [hs', hm'.inv.cursor_eq, ← hm'.highest, ← hm'.cursor, hhighest] at hfinished
    simp at hfinished
    omega

theorem OnTime.pull (h : OnTime packets arrives origin calls tick r)
    (hhears : HearsStream first packets calls r) {jb : JitterBuffer P} (hm : Matches jb r) {clock : Nat}
    {now : U32} (hp : jb.Punctual clock now.toNat) (hbound : now.toNat < 2 ^ 31)
    (hbehind : pushedPackets calls ≠ [] → ∀ i : Fin n, arrives i = true →
      origin + 160 * i.val + 800 ≤ now.toNat → packets i ∈ pushedPackets calls) {tick' : Nat}
    (htick : tick' = tick ∨ tick' = now.toNat + 160 ∧ jb.loopEnds now = true) :
    OnTime packets arrives origin (calls ++ [.pull now]) tick' (r.pull now).2 := by
  obtain ⟨hstarted, _, hhighest, haccepted⟩ := next_of_not_push r (.pull now) fun _ _ => by simp
  change (r.pull now).2.highest = r.highest at hhighest
  change (r.pull now).2.accepted = r.accepted at haccepted
  have hsame : pushedPackets (calls ++ [.pull now]) = pushedPackets calls :=
    pushedPackets_of_not_push calls rfl
  have hunchanged : (r.pull now).2.firstArrival = r.firstArrival ∧ (r.pull now).2.ended = r.ended := by
    rcases r.pull_cases now with hpull | ⟨_, _, hpull⟩ | ⟨_, hpull⟩ <;> rw [hpull] <;> exact ⟨rfl, rfl⟩
  have hmono : r.cursor ≤ (r.pull now).2.cursor := by
    rw [r.pull_cursor]
    split_ifs <;> omega
  refine ⟨?_, ?_, ?_, ?_, ?_, ?_, ?_⟩
  · rw [hunchanged.1]
    exact fun hs => h.firstArrival (hstarted.symm.trans hs)
  · rw [hsame, hhighest, haccepted]
    exact h.pushed
  · rw [haccepted]
    exact h.arrived
  · rw [hhighest]
    exact h.frontier
  · intro i hi hia
    rw [haccepted]
    rw [r.pull_cursor] at hi
    split_ifs at hi with hdue
    · rcases Nat.lt_succ_iff_lt_or_eq.mp hi with hi | hi
      · exact h.played i hi hia
      · exact h.accepted_of_due hhears hm hp hbound hbehind ((hm.isDue now).symm.trans hdue) hi hia
    · exact h.played i hi hia
  · intro hs i hia hi
    have hs' : r.started = true := hstarted.symm.trans hs
    rcases htick with rfl | ⟨rfl, hloop⟩
    · exact lt_of_lt_of_le (h.keptUp hs' i hia hi) hmono
    · exact h.caught_up hhears hm hp hbound hbehind hloop hs' hia (by omega)
  · rw [hsame, hunchanged.2]
    exact h.ended

end Step

/-! ## Whole runs -/

theorem onTime_run {calls : List Call} {clock tick : Nat} (hpaced : Paced P options junk calls clock tick)
    (hnum : Numbered first packets) (hpushes : PushesOnly packets calls)
    (htimely : Timely packets arrives gap origin calls) :
    OnTime packets arrives origin calls tick (refRun P options calls) := by
  induction hpaced with
  | start => exact onTime_init options _
  | @push calls clock tick h packet arrival hclock htick hbound ih =>
    have hinit : calls <+: calls ++ [.push packet arrival] := List.prefix_append _ _
    have hhears : HearsStream first packets calls (refRun P options calls) :=
      hearsStream_run hnum calls (hpushes.initial hinit)
    have hp := h.punctual
    rw [refRun_snoc]
    obtain ⟨i, rfl⟩ := hpushes.mem packet (by rw [pushedPackets_push]; simp)
    obtain ⟨horigin, hpacket⟩ := htimely.timely calls _ (List.prefix_refl _)
    obtain ⟨harrives, hahead⟩ := hpacket i rfl
    refine OnTime.push (ih (hpushes.initial hinit) (htimely.initial hinit)) hnum hhears htimely.gap_le
      htimely.few harrives ?_ hahead htick ?_
    · intro hnone
      obtain ⟨j, hzero, hj⟩ := hpushes.head (packets i) (by rw [pushedPackets_push, hnone]; rfl)
      obtain rfl := hnum.injective hj
      exact ⟨hzero, horigin hnone⟩
    · have htick := hp.tick_le
      omega
  | @markStreamEnded calls clock tick h ih =>
    have hinit : calls <+: calls ++ [.markStreamEnded] := List.prefix_append _ _
    rw [refRun_snoc]
    exact OnTime.markStreamEnded (ih (hpushes.initial hinit) (htimely.initial hinit))
      (htimely.timely calls _ (List.prefix_refl _))
  | @again calls clock now h hbound hloop ih =>
    have hinit : calls <+: calls ++ [.pull now] := List.prefix_append _ _
    rw [refRun_snoc]
    exact OnTime.pull (ih (hpushes.initial hinit) (htimely.initial hinit))
      (hearsStream_run hnum calls (hpushes.initial hinit)) (matches_run options junk calls) h.punctual
      hbound (htimely.timely calls _ (List.prefix_refl _)) (Or.inl rfl)
  | @rest calls clock now h hbound hloop ih =>
    have hinit : calls <+: calls ++ [.pull now] := List.prefix_append _ _
    rw [refRun_snoc]
    exact OnTime.pull (ih (hpushes.initial hinit) (htimely.initial hinit))
      (hearsStream_run hnum calls (hpushes.initial hinit)) (matches_run options junk calls) h.punctual
      hbound (htimely.timely calls _ (List.prefix_refl _)) (Or.inr ⟨rfl, hloop⟩)

/-- Frame `k` of the stream as `frame` makes it, when its packet arrives. -/
def arriving (arrives : Fin n → Bool) (frame : Fin n → Frame) (k : Nat) : Option Frame :=
  if h : k < n then if arrives ⟨k, h⟩ then some (frame ⟨k, h⟩) else none else none

/-- What the packets of the stream decode to. -/
def streamFrame (order : ByteOrder) (packets : Fin n → Packet) (i : Fin n) : Frame :=
  decodePayload order (packets i).payloadType (packets i).payload

/-- Of the frames that were played, those whose packets arrive were not concealed, and no other ones. -/
theorem OnTime.realFrames {calls : List Call} {tick : Nat} {r : Reference P}
    (h : OnTime packets arrives origin calls tick r) (hhears : HearsStream first packets calls r) {k : Nat}
    (hk : k < r.cursor) : r.realFrames k = arriving arrives (streamFrame P.byteOrder packets) k := by
  unfold Reference.realFrames arriving
  cases hpacket : r.accepted k with
  | some packet =>
    obtain ⟨i, hi, rfl⟩ := hhears.accepted_only k packet hpacket
    obtain rfl : k = i.val := Int.natCast_inj.mp hi
    rw [dif_pos i.isLt, if_pos (h.arrived i (Option.isSome_iff_exists.mpr ⟨_, hpacket⟩))]
    rfl
  | none =>
    split_ifs with hlt hk'
    · have hsome := h.played ⟨k, hlt⟩ hk hk'
      rw [hpacket] at hsome
      exact absurd hsome Bool.false_ne_true
    · rfl
    · rfl

/-- A finished buffer has played the packets that arrive, and ends with the last of them. -/
theorem OnTime.finished {calls : List Call} {tick : Nat} {r : Reference P}
    (h : OnTime packets arrives origin calls tick r) (hhears : HearsStream first packets calls r)
    {jb : JitterBuffer P} (hm : Matches jb r) (hfinished : jb.finished = true) :
    (∀ i : Fin n, arrives i = true → i.val < jb.framesPlayed.toNat) ∧
      (0 < jb.framesPlayed.toNat → ∃ i : Fin n, jb.framesPlayed.toNat = i.val + 1 ∧ arrives i = true) ∧
      (jb.started = true → jb.occupiedSlots = 0) := by
  have hended : r.ended = true := by
    rw [hm.ended]
    unfold JitterBuffer.finished at hfinished
    cases hs : jb.started <;> cases he : jb.streamEnded <;> simp [hs, he] at hfinished ⊢
  have hall := h.ended hended
  cases hs : jb.started with
  | true =>
    obtain ⟨hcursor, hslots⟩ := hm.inv.drained hs hfinished
    rw [← hm.highest] at hcursor
    refine ⟨fun i hi => ?_, fun hpos => ?_, fun _ => hslots⟩
    · have hle := (h.pushed i (hall i hi)).1
      omega
    · obtain ⟨i, hi, hia⟩ := h.frontier (by omega)
      exact ⟨i, by omega, hia⟩
  | false =>
    have hnone : pushedPackets calls = [] := by
      by_contra hne
      have hstarted := hm.started.symm.trans (hhears.started.mpr hne)
      rw [hs] at hstarted
      exact absurd hstarted Bool.false_ne_true
    have hzero := hm.inv.framesPlayed_eq_zero hs
    refine ⟨fun i hi => ?_, fun hpos => by omega, fun h => absurd h Bool.false_ne_true⟩
    have hmem := hall i hi
    rw [hnone] at hmem
    exact absurd hmem List.not_mem_nil

/-- The first part of a paced run is paced. -/
theorem Paced.initial {calls before : List Call} {clock tick : Nat}
    (h : Paced P options junk calls clock tick) (hinit : before <+: calls) :
    ∃ clock' tick', Paced P options junk before clock' tick' := by
  induction h with
  | start hle htick =>
    obtain rfl := List.prefix_nil.mp hinit
    exact ⟨_, _, .start hle htick⟩
  | push h packet hclock htick hbound ih =>
    rcases List.prefix_concat_iff.mp hinit with rfl | hinit
    · exact ⟨_, _, .push h packet hclock htick hbound⟩
    · exact ih hinit
  | markStreamEnded h ih =>
    rcases List.prefix_concat_iff.mp hinit with rfl | hinit
    · exact ⟨_, _, .markStreamEnded h⟩
    · exact ih hinit
  | again h hbound hloop ih =>
    rcases List.prefix_concat_iff.mp hinit with rfl | hinit
    · exact ⟨_, _, .again h hbound hloop⟩
    · exact ih hinit
  | rest h hbound hloop ih =>
    rcases List.prefix_concat_iff.mp hinit with rfl | hinit
    · exact ⟨_, _, .rest h hbound hloop⟩
    · exact ih hinit

section Timely

variable {calls : List Call} {clock tick : Nat} (hpaced : Paced P options junk calls clock tick)
  (hnum : Numbered first packets) (hpushes : PushesOnly packets calls)
  (htimely : Timely packets arrives gap origin calls)
include hpaced hnum hpushes htimely

/-- What is played are the packets that arrive; the others are concealed, and counted as lost. -/
theorem timely_playout :
    (JitterBuffer.counts ((jitterSystem P options junk).run calls)).lost =
      missing (arriving arrives (streamFrame P.byteOrder packets))
        (JitterBuffer.framesPlayed ((jitterSystem P options junk).run calls)).toNat ∧
    ((jitterSystem P options junk).trace calls).filterMap id =
      (playout P options (arriving arrives (streamFrame P.byteOrder packets))
        (JitterBuffer.framesPlayed ((jitterSystem P options junk).run calls)).toNat).frames := by
  have hm : Matches _ (refRun P options calls) := matches_run options junk calls
  have hhears : HearsStream first packets calls (refRun P options calls) :=
    hearsStream_run hnum calls hpushes
  have hreal (k : Nat) (hk : k < (refRun P options calls).cursor) :=
    (onTime_run hpaced hnum hpushes htimely).realFrames hhears hk
  rw [← hm.cursor]
  refine ⟨(lost_run options junk calls).trans (missing_congr hreal), ?_⟩
  rw [trace_frames, playout_congr options _ hreal]

/-- A buffer that is finished, or was so before, has played every packet that arrives, and the last of them
last. -/
theorem timely_finished {before : List Call} (hinit : before <+: calls)
    (hfinished : JitterBuffer.finished ((jitterSystem P options junk).run before) = true) :
    let framesPlayed := (JitterBuffer.framesPlayed ((jitterSystem P options junk).run calls)).toNat
    (∀ i : Fin n, arrives i = true → i.val < framesPlayed) ∧
      (0 < framesPlayed → ∃ i : Fin n, framesPlayed = i.val + 1 ∧ arrives i = true) := by
  intro framesPlayed
  obtain ⟨clock', tick', hbefore⟩ := hpaced.initial hinit
  obtain ⟨hplayed, _⟩ := (onTime_run hbefore hnum (hpushes.initial hinit) (htimely.initial hinit)).finished
    (hearsStream_run hnum _ (hpushes.initial hinit)) (matches_run options junk before) hfinished
  have hmono : (JitterBuffer.framesPlayed ((jitterSystem P options junk).run before)).toNat ≤
      framesPlayed := by
    obtain ⟨rest, rfl⟩ := hinit
    exact run_framesPlayed_le (P := P) options junk before rest
  have hall (i : Fin n) (hi : arrives i = true) : i.val < framesPlayed :=
    lt_of_lt_of_le (hplayed i hi) hmono
  refine ⟨hall, fun hpos => ?_⟩
  obtain ⟨hle, hcursor⟩ := refRun_cursor (P := P) options junk calls
  obtain ⟨i, hi, hia⟩ := (onTime_run hpaced hnum hpushes htimely).frontier (by omega)
  have hlt := hall i hia
  exact ⟨i, by omega, hia⟩

/-- **Loss tolerance.** In a paced run on a timely stream every packet that arrives is played in its place,
and the others are concealed there and counted as lost. When the buffer is finished it has played all that
arrive, and every push that it has dropped was a copy. -/
theorem timely_stream_conceals_only_lost :
    let jb : JitterBuffer P := (jitterSystem P options junk).run calls
    let real := arriving arrives (streamFrame P.byteOrder packets)
    jb.counts.lost = missing real jb.framesPlayed.toNat ∧
    ((jitterSystem P options junk).trace calls).filterMap id =
      (playout P options real jb.framesPlayed.toNat).frames ∧
    (jb.finished = true → (∀ i : Fin n, arrives i = true → i.val < jb.framesPlayed.toNat) ∧
      jb.counts.lateDropped + jb.counts.duplicate + jb.framesPlayed.toNat =
        (pushedPackets calls).length + jb.counts.lost) := by
  intro jb real
  obtain ⟨hlost, hframes⟩ := timely_playout hpaced hnum hpushes htimely
  refine ⟨hlost, hframes, fun hfinished => ?_⟩
  have hm : Matches jb (refRun P options calls) := matches_run options junk calls
  obtain ⟨hplayed, _, hslots⟩ := (onTime_run hpaced hnum hpushes htimely).finished
    (hearsStream_run hnum calls hpushes) hm hfinished
  refine ⟨hplayed, ?_⟩
  obtain ⟨hpackets, hbalance, _⟩ : jb.Balanced (realFramesPlayed P options junk calls) :=
    balanced_run options junk calls
  have hreceived : jb.counts.received = (pushedPackets calls).length := received_run options junk calls
  have hnothing : jb.occupiedSlots = 0 := by
    cases hs : jb.started with
    | true => exact hslots hs
    | false =>
      refine hm.inv.occupiedSlots_eq_zero ?_
      by_contra hle
      have hstarted := hm.inv.started_iff.mpr (by omega)
      rw [hs] at hstarted
      exact absurd hstarted Bool.false_ne_true
  omega

end Timely

theorem Paced.pull_lt {calls : List Call} {clock tick : Nat} (h : Paced P options junk calls clock tick)
    {m : Nat} {now : U32} (hcall : calls[m]? = some (.pull now)) : now.toNat < 2 ^ 31 := by
  induction h with
  | start => cases hcall
  | push _ _ _ _ _ ih | markStreamEnded _ ih =>
    rcases getElem?_snoc_cases hcall with ⟨hcall, _⟩ | ⟨_, hcall, _⟩
    · exact ih hcall
    · cases hcall
  | again _ hbound _ ih | rest _ hbound _ ih =>
    rcases getElem?_snoc_cases hcall with ⟨hcall, _⟩ | ⟨_, hcall, _⟩
    · exact ih hcall
    · obtain rfl := Call.pull.inj hcall
      exact hbound

/-- **The playout schedule.** Until the stream is ended, a paced run on a timely stream produces frame `k`
at least 100 ms after its time, and less than 220 ms when its packet arrives. A concealed frame may be later
by as many frames as the longest gap has. -/
theorem timely_stream_on_schedule {calls : List Call} {clock tick : Nat}
    (hpaced : Paced P options junk calls clock tick) (hnum : Numbered first packets)
    (hpushes : PushesOnly packets calls) (htimely : Timely packets arrives gap origin calls) {m k : Nat}
    {now : U32} (hcall : calls[m]? = some (.pull now))
    (hplays : JitterBuffer.isDue ((jitterSystem P options junk).run (calls.take m)) now = true)
    (hk : (JitterBuffer.framesPlayed ((jitterSystem P options junk).run (calls.take m))).toNat = k)
    (hopen : JitterBuffer.streamEnded ((jitterSystem P options junk).run (calls.take m)) = false) :
    origin + 160 * k + 800 ≤ now.toNat ∧
    (∀ h : k < n, arrives ⟨k, h⟩ = true → now.toNat < origin + 160 * k + 1760) ∧
    now.toNat < origin + 160 * (k + gap) + 1760 := by
  have hinit : calls.take m <+: calls := List.take_prefix m calls
  obtain ⟨before, hbefore⟩ := hpaced.at_pull hcall
  have h := onTime_run hbefore hnum (hpushes.initial hinit) (htimely.initial hinit)
  have hp := hbefore.punctual
  have hm : Matches _ (refRun P options (calls.take m)) := matches_run options junk (calls.take m)
  have hhears : HearsStream first packets (calls.take m) (refRun P options (calls.take m)) :=
    hearsStream_run hnum _ (hpushes.initial hinit)
  obtain ⟨hs, hle, hwhen⟩ := isDue_iff.mp hplays
  rw [hopen] at hwhen
  rw [hm.inv.cursor_eq, ← hm.highest] at hle
  have hstarted := hm.started.trans hs
  have hlt := hhears.highest_lt
  have hfirst := hp.first_le hs
  have hclock := hp.clock_le
  have horigin := h.firstArrival hstarted
  rw [hm.firstArrival] at horigin
  have hdeadline := hwhen.resolve_left Bool.false_ne_true
  have hbound := hpaced.pull_lt hcall
  have hcursor := hm.cursor
  obtain ⟨hlow, _⟩ := deadline_bounds hm.inv hp.depth (by omega)
  rw [BitVec.le_def] at hdeadline
  -- at the tick before, a packet that arrives would have been played
  have hnext (i : Fin n) (hi : k ≤ i.val) (harrives : arrives i = true) :
      now.toNat < origin + 160 * i.val + 1760 := by
    by_contra hlate
    have hkept := h.keptUp hstarted i harrives (by omega)
    omega
  refine ⟨by omega, fun hkn hka => hnext ⟨k, hkn⟩ le_rfl hka, ?_⟩
  obtain ⟨last, hlast, hlastArrives⟩ := h.frontier (by omega)
  rcases Nat.lt_or_ge (k + gap) last.val with hfar | hnear
  · obtain ⟨i, hlow, hhigh, hi⟩ := htimely.few k (by have := last.isLt; omega)
    have hsoon := hnext i hlow hi
    omega
  · have hsoon := hnext last (by omega) hlastArrives
    omega

/-! ## A stream that has lost a packet -/

/-- Three packets, of which the network loses the second. -/
def lossyCalls : List Call :=
  [] ++ [Call.push (silentPacket 0) 0] ++ [Call.pull 160] ++ [Call.push (silentPacket 2) 320] ++
    [Call.pull 320] ++ [Call.pull 480] ++ [Call.pull 640] ++ [Call.pull 800] ++ [Call.pull 800] ++
    [Call.pull 960] ++ [Call.pull 960] ++ [Call.pull 1120]

def lossyPackets (i : Fin 3) : Packet := silentPacket i

def lossyArrives (i : Fin 3) : Bool := i != 1

theorem paced_lossy : Paced (exactPlatform .little fun _ sample => sample) {}
    (Vector.replicate _ (Vector.replicate _ 0)) lossyCalls 1120 1120 := by
  have harrived : Paced (exactPlatform .little fun _ sample => sample) {}
      (Vector.replicate _ (Vector.replicate _ 0))
      ([] ++ [.push (silentPacket 0) 0] ++ [.pull 160] ++ [.push (silentPacket 2) 320]) 320 320 :=
    .push (.rest (.push (.start (Nat.zero_le 160) le_rfl) (silentPacket 0) le_rfl (by decide) (by decide))
      (by decide) (by decide +kernel)) (silentPacket 2) (by decide) (by decide) (by decide)
  -- two pulls at 800 and at 960, the second of which returns false
  refine .again (.rest (.again (.rest (.again (.rest (.rest (.rest harrived ?_ ?_) ?_ ?_) ?_ ?_) ?_ ?_)
    ?_ ?_) ?_ ?_) ?_ ?_) ?_ ?_ <;> decide +kernel

theorem numbered_lossy : Numbered 0 lossyPackets :=
  ⟨by decide, fun i => (BitVec.zero_add _).symm⟩

theorem pushesOnly_lossy : PushesOnly lossyPackets lossyCalls := by
  have hpushed : pushedPackets lossyCalls = [lossyPackets 0, lossyPackets 2] := rfl
  constructor
  · intro packet hmem
    rw [hpushed] at hmem
    rcases List.mem_cons.mp hmem with rfl | hmem
    · exact ⟨0, rfl⟩
    · exact ⟨2, List.mem_singleton.mp hmem⟩
  · intro packet hhead
    rw [hpushed] at hhead
    exact ⟨0, rfl, (Option.some.inj hhead).symm⟩

theorem timely_lossy : Timely lossyPackets lossyArrives 1 0 lossyCalls := by
  refine timely_of_forall (by decide) (fun k hk => ?_) (by decide +kernel)
  obtain rfl | rfl : k = 0 ∨ k = 1 := by omega
  · exact ⟨0, by decide⟩
  · exact ⟨2, by decide⟩

/-- Frame 1 is concealed between the two others. -/
theorem timely_stream_conceals_only_lost_example :
    (JitterBuffer.counts ((jitterSystem (exactPlatform .little fun _ sample => sample) {}
      (Vector.replicate _ (Vector.replicate _ 0))).run lossyCalls)).lost = 1 ∧
    ((jitterSystem (exactPlatform .little fun _ sample => sample) {}
      (Vector.replicate _ (Vector.replicate _ 0))).trace lossyCalls).filterMap id =
      (playout (exactPlatform .little fun _ sample => sample) {}
        (arriving lossyArrives (streamFrame .little lossyPackets)) 3).frames := by
  have hplayed : (JitterBuffer.framesPlayed ((jitterSystem (exactPlatform .little fun _ sample => sample) {}
      (Vector.replicate _ (Vector.replicate _ 0))).run lossyCalls)).toNat = 3 := by decide +kernel
  obtain ⟨hlost, hframes, _⟩ := timely_stream_conceals_only_lost paced_lossy numbered_lossy
    pushesOnly_lossy timely_lossy
  rw [hplayed] at hlost hframes
  exact ⟨hlost.trans (by decide +kernel), hframes⟩

/-- At 800 nothing is due any more, and the first pull at 960 produces the concealed frame 1. -/
theorem timely_stream_on_schedule_example :
    let before : JitterBuffer (exactPlatform .little fun _ sample => sample) :=
      (jitterSystem _ {} (Vector.replicate _ (Vector.replicate _ 0))).run (lossyCalls.take 8)
    lossyCalls[8]? = some (.pull 960) ∧ before.framesPlayed = 1 ∧
      (before.tryPullDueFrame 800).1 = none ∧ (before.tryPullDueFrame 960).1.isSome = true ∧
      0 + 160 * 1 + 800 ≤ (960 : U32).toNat ∧ (960 : U32).toNat < 0 + 160 * (1 + 1) + 1760 := by
  intro before
  have hcall : lossyCalls[8]? = some (.pull 960) := rfl
  have hdue : before.isDue 960 = true := by decide +kernel
  have hplayed : before.framesPlayed = 1 := by decide +kernel
  obtain ⟨hlow, _, hhigh⟩ := timely_stream_on_schedule (k := 1) paced_lossy numbered_lossy pushesOnly_lossy
    timely_lossy hcall hdue (congrArg BitVec.toNat hplayed) (by decide +kernel)
  exact ⟨hcall, hplayed, by decide +kernel, (pull_isSome before 960).trans hdue, hlow, hhigh⟩

end RtpStreamer
