import Mathlib.Algebra.Order.Field.Rat
import Mathlib.Tactic.Positivity
import RtpStreamer.Impair.Middlebox

/-!
# What the middlebox forwards

Along a run, in whatever order the threads move: the counters are those of the datagrams received, what the
main thread sends is in order, what the other threads send is complete, and the verdicts are the draws from
the seed, one after the other.
-/

namespace RtpStreamer

/-! ## The draws -/

namespace Generator

variable (G : Generator) (cfg : ImpairConfig)

/-- The generator behind `n` datagrams. -/
def after (rng : G.State) : Nat → G.State
  | 0 => rng
  | n + 1 => (G.draw cfg (after rng n)).2

/-- The verdict on datagram `n`. -/
def verdict (rng : G.State) (n : Nat) : Option Verdict := (G.draw cfg (G.after cfg rng n)).1

variable {G cfg} {rng : G.State} {verdict : Verdict}

theorem draw_of_loss (hloss : cfg.loss ≤ 0) (rng : G.State) :
    ∃ verdict, (G.draw cfg rng).1 = some verdict := by
  have hkept : ¬ (G.unit rng).1 < cfg.loss := Rat.not_lt.mpr (Rat.le_trans hloss (G.unit_nonneg rng))
  unfold draw
  dsimp only
  rw [if_neg hkept]
  exact ⟨_, rfl⟩

/-- What a datagram that is kept has drawn. -/
theorem draw_some (h : (G.draw cfg rng).1 = some verdict) :
    ∃ delayMs : Int, ∃ reorder dup : Rat, 0 ≤ delayMs ∧ delayMs ≤ max cfg.jitterMs 0 ∧
      (cfg.jitterMs ≤ 0 → delayMs = 0) ∧ 0 ≤ reorder ∧ 0 ≤ dup ∧ verdict = {
        delayMs := if reorder < cfg.reorder then delayMs + kReorderExtraDelayMs else delayMs
        reordered := decide (reorder < cfg.reorder)
        isDup := decide (dup < cfg.dup) } := by
  unfold draw at h
  dsimp only at h
  split at h
  · exact absurd h (by simp)
  · refine ⟨_, _, _, ?_, ?_, ?_, G.unit_nonneg _, G.unit_nonneg _, (Option.some.inj h).symm⟩
    · by_cases hjitter : cfg.jitterMs > 0
      · rw [if_pos hjitter]
        exact G.jitter_nonneg _ _ (Int.le_of_lt hjitter)
      · simp only [if_neg hjitter, Int.le_refl]
    · by_cases hjitter : cfg.jitterMs > 0
      · rw [if_pos hjitter]
        exact le_max_of_le_left (G.jitter_le _ _ (Int.le_of_lt hjitter))
      · rw [if_neg hjitter]
        exact le_max_right _ _
    · intro hjitter
      rw [if_neg (Int.not_lt.mpr hjitter)]

/-- Without jitter and reordering nothing is delayed. -/
theorem draw_undelayed (hjitter : cfg.jitterMs ≤ 0) (hreorder : cfg.reorder ≤ 0)
    (h : (G.draw cfg rng).1 = some verdict) : verdict.delayMs ≤ 0 := by
  obtain ⟨delayMs, reorder, dup, _, _, hzero, hnonneg, _, rfl⟩ := draw_some h
  exact Int.le_of_eq ((if_neg (Rat.not_lt.mpr (Rat.le_trans hreorder hnonneg))).trans (hzero hjitter))

/-- Without duplication everything is sent once. -/
theorem draw_once (hdup : cfg.dup ≤ 0) (h : (G.draw cfg rng).1 = some verdict) :
    verdict.isDup = false := by
  obtain ⟨delayMs, reorder, dup, _, _, _, _, hnonneg, rfl⟩ := draw_some h
  exact decide_eq_false (Rat.not_lt.mpr (Rat.le_trans hdup hnonneg))

/-- The addition to the delay does not overflow. -/
theorem draw_delayMs (h : (G.draw cfg rng).1 = some verdict) :
    0 ≤ verdict.delayMs ∧ verdict.delayMs ≤ 0x7FFFFFFF := by
  obtain ⟨delayMs, reorder, dup, hlow, hhigh, _, _, _, rfl⟩ := draw_some h
  have hjitter := cfg.jitterMs_le
  have hextra : kReorderExtraDelayMs = 40 := rfl
  dsimp only
  split <;> omega

/-- Whatever is reordered is delayed. -/
theorem draw_reordered (h : (G.draw cfg rng).1 = some verdict) (hreordered : verdict.reordered = true) :
    kReorderExtraDelayMs ≤ verdict.delayMs := by
  obtain ⟨delayMs, reorder, dup, hdelay, _, _, _, _, rfl⟩ := draw_some h
  dsimp only at hreordered ⊢
  rw [if_pos (of_decide_eq_true hreordered)]
  omega

end Generator

/-! ## One step -/

def ImpairPc.pending : ImpairPc → List (List U8)
  | .sending payload copies => List.replicate copies payload
  | .receiving | .joining _ | .exited => []

def Held.pending (held : Held) : List (List U8) := List.replicate held.copies held.payload

def Verdict.undelayed (verdict : Verdict) : Bool := decide (verdict.delayMs ≤ 0)

def arrivalsOf (events : List ImpairEvent) : List (List U8 × Option Verdict) :=
  events.filterMap ImpairEvent.arrival

def keptOf (events : List ImpairEvent) : List (List U8 × Verdict) := events.filterMap ImpairEvent.kept

def outputsOf (events : List ImpairEvent) : List (List U8) := events.filterMap ImpairEvent.output

/-- What the main thread sends (`false`), and what the other threads send. -/
def sentOf (delayed : Bool) (events : List ImpairEvent) : List (List U8) :=
  events.filterMap (ImpairEvent.sentBy delayed)

/-- The datagrams that the main thread sends itself. -/
def undelayedOf (kept : List (List U8 × Verdict)) : List (List U8 × Verdict) :=
  kept.filter fun entry => entry.2.undelayed

def delayedOf (kept : List (List U8 × Verdict)) : List (List U8 × Verdict) :=
  kept.filter fun entry => !entry.2.undelayed

section Events

variable (events : List ImpairEvent)

theorem keptOf_snoc (event : ImpairEvent) :
    keptOf (events ++ [event]) = keptOf events ++ event.kept.toList := by
  unfold keptOf
  rw [List.filterMap_append]
  cases h : event.kept <;> simp [h]

theorem keptOf_dropped (payload : List U8) :
    keptOf (events ++ [.arrived payload none]) = keptOf events :=
  (keptOf_snoc events _).trans (List.append_nil _)

theorem sentOf_snoc (delayed : Bool) (event : ImpairEvent) :
    sentOf delayed (events ++ [event]) = sentOf delayed events ++ (event.sentBy delayed).toList := by
  unfold sentOf
  rw [List.filterMap_append]
  cases h : event.sentBy delayed <;> simp [h]

theorem sentOf_arrived (delayed : Bool) (payload : List U8) (verdict : Option Verdict) :
    sentOf delayed (events ++ [.arrived payload verdict]) = sentOf delayed events :=
  (sentOf_snoc events delayed _).trans (List.append_nil _)

theorem copiesOf_append (kept kept' : List (List U8 × Verdict)) :
    copiesOf (kept ++ kept') = copiesOf kept ++ copiesOf kept' := List.flatMap_append

theorem copiesOf_singleton (payload : List U8) (verdict : Verdict) :
    copiesOf [(payload, verdict)] = List.replicate verdict.sendCount payload := List.append_nil _

/-- What is sent is what the main thread and the other threads send. -/
theorem outputsOf_perm : (outputsOf events).Perm (sentOf false events ++ sentOf true events) := by
  induction events with
  | nil => exact List.Perm.refl _
  | cons event events ih =>
    cases event with
    | arrived payload verdict => exact ih
    | sent payload delayed =>
      cases delayed with
      | false => exact ih.cons payload
      | true => exact (ih.cons payload).trans List.perm_middle.symm

theorem copiesOf_perm (kept : List (List U8 × Verdict)) :
    (copiesOf (undelayedOf kept) ++ copiesOf (delayedOf kept)).Perm (copiesOf kept) := by
  rw [← copiesOf_append]
  exact (List.filter_append_perm _ kept).flatMap_right _

end Events

namespace Middlebox

variable {G : Generator} {cfg : ImpairConfig}

def inFlightPending (box : Middlebox G) : List (List U8) := box.inFlight.flatMap Held.pending

/-- The counters and the verdicts are those of the datagrams received. -/
structure Counted (cfg : ImpairConfig) (box : Middlebox G) (events : List ImpairEvent) : Prop where
  rng : box.rng = G.after cfg (G.seeded cfg.seed) box.received
  verdicts : (arrivalsOf events).map Prod.snd =
    (List.range box.received).map (G.verdict cfg (G.seeded cfg.seed))
  dropped : box.dropped + (keptOf events).length = box.received
  duplicated : box.duplicated = (keptOf events).countP fun entry => entry.2.isDup
  reordered : box.reordered = (keptOf events).countP fun entry => entry.2.reordered
  forwarded : box.forwarded = (copiesOf (keptOf events)).length

/-- The copies sent, and those still to be sent, are those of the datagrams received; and a thread that has
been joined has sent its copies. -/
structure Carried (box : Middlebox G) (events : List ImpairEvent) : Prop where
  immediate : sentOf false events ++ box.main.pending = copiesOf (undelayedOf (keptOf events))
  delayed : (sentOf true events ++ box.inFlightPending).Perm (copiesOf (delayedOf (keptOf events)))
  joined : ∀ next, box.main = .joining next → ∀ held ∈ box.inFlight.take next, held.copies = 0
  exited : box.main = .exited → ∀ held ∈ box.inFlight, held.copies = 0

theorem counted_initial : Counted cfg { rng := G.seeded cfg.seed : Middlebox G } [] :=
  ⟨rfl, rfl, rfl, rfl, rfl, rfl⟩

theorem carried_initial : Carried { rng := G.seeded cfg.seed : Middlebox G } [] :=
  ⟨rfl, List.Perm.refl _, fun _ h => ImpairPc.noConfusion h, fun h => ImpairPc.noConfusion h⟩

section Step

variable {box box' : Middlebox G} {events : List ImpairEvent}

/-- The counters behind a datagram that is kept. -/
def keep (box : Middlebox G) (verdict : Verdict) (rng : G.State) : Middlebox G :=
  { box with
    rng := rng
    received := box.received + 1
    reordered := box.reordered + verdict.reordered.toNat
    duplicated := box.duplicated + verdict.isDup.toNat
    forwarded := box.forwarded + verdict.sendCount }

/-- What becomes of a datagram. -/
inductive Handled (cfg : ImpairConfig) (box : Middlebox G) (payload : List U8) :
    Middlebox G × Option ImpairEvent → Prop where
  | dropped {rng : G.State} (hdraw : G.draw cfg box.rng = (none, rng)) :
      Handled cfg box payload
        ({ box with rng := rng, received := box.received + 1, dropped := box.dropped + 1 },
          some (.arrived payload none))
  | sent {verdict : Verdict} {rng : G.State} (hdraw : G.draw cfg box.rng = (some verdict, rng))
      (hundelayed : verdict.undelayed = true) :
      Handled cfg box payload
        ({ box.keep verdict rng with main := .sending payload verdict.sendCount },
          some (.arrived payload (some verdict)))
  | held {verdict : Verdict} {rng : G.State} (hdraw : G.draw cfg box.rng = (some verdict, rng))
      (hdelayed : verdict.undelayed = false) :
      Handled cfg box payload
        ({ box.keep verdict rng with
            inFlight := box.inFlight ++ [{ payload := payload, copies := verdict.sendCount }] },
          some (.arrived payload (some verdict)))

theorem handled (cfg : ImpairConfig) (box : Middlebox G) (payload : List U8) :
    Handled cfg box payload (box.handle cfg payload) := by
  unfold Middlebox.handle
  rcases hdraw : G.draw cfg box.rng with ⟨_ | verdict, rng⟩
  · exact .dropped hdraw
  · by_cases hdelay : verdict.delayMs ≤ 0
    · dsimp only
      rw [if_pos hdelay]
      exact .sent hdraw (decide_eq_true hdelay)
    · dsimp only
      rw [if_neg hdelay]
      exact .held hdraw (decide_eq_false hdelay)

/-- A step that receives nothing. -/
theorem Counted.quiet (h : Counted cfg box events) {event : Option ImpairEvent}
    (harrivals : arrivalsOf event.toList = []) (hkept : keptOf event.toList = [])
    (hrng : box'.rng = box.rng) (hreceived : box'.received = box.received)
    (hdropped : box'.dropped = box.dropped) (hduplicated : box'.duplicated = box.duplicated)
    (hreordered : box'.reordered = box.reordered) (hforwarded : box'.forwarded = box.forwarded) :
    Counted cfg box' (events ++ event.toList) := by
  have hall : arrivalsOf (events ++ event.toList) = arrivalsOf events := by
    unfold arrivalsOf at harrivals ⊢
    rw [List.filterMap_append, harrivals, List.append_nil]
  have hsame : keptOf (events ++ event.toList) = keptOf events := by
    unfold keptOf at hkept ⊢
    rw [List.filterMap_append, hkept, List.append_nil]
  constructor
  · rw [hrng, hreceived]
    exact h.rng
  · rw [hall, hreceived]
    exact h.verdicts
  · rw [hsame, hreceived, hdropped]
    exact h.dropped
  · rw [hsame, hduplicated]
    exact h.duplicated
  · rw [hsame, hreordered]
    exact h.reordered
  · rw [hsame, hforwarded]
    exact h.forwarded

/-- The verdict on the next datagram is the next draw. -/
theorem Counted.draws (h : Counted cfg box events) (payload : List U8) {verdict : Option Verdict}
    {rng : G.State} (hdraw : G.draw cfg box.rng = (verdict, rng)) :
    rng = G.after cfg (G.seeded cfg.seed) (box.received + 1) ∧
      (arrivalsOf (events ++ [.arrived payload verdict])).map Prod.snd =
        (List.range (box.received + 1)).map (G.verdict cfg (G.seeded cfg.seed)) := by
  have hverdicts := h.verdicts
  rw [h.rng] at hdraw
  refine ⟨(congrArg Prod.snd hdraw).symm, ?_⟩
  unfold arrivalsOf at hverdicts ⊢
  rw [List.filterMap_append, List.map_append, List.range_succ, List.map_append, hverdicts]
  exact congrArg (fun verdict => _ ++ [verdict]) (congrArg Prod.fst hdraw).symm

theorem Counted.keep (h : Counted cfg box events) (payload : List U8) {verdict : Verdict}
    {rng : G.State} (hdraw : G.draw cfg box.rng = (some verdict, rng)) :
    Counted cfg (box.keep verdict rng) (events ++ [.arrived payload (some verdict)]) := by
  obtain ⟨hrng, hverdicts⟩ := h.draws payload hdraw
  have hkept : keptOf (events ++ [.arrived payload (some verdict)]) =
      keptOf events ++ [(payload, verdict)] := keptOf_snoc events _
  refine ⟨hrng, hverdicts, ?_, ?_, ?_, ?_⟩
  · rw [hkept, List.length_append]
    show box.dropped + (_ + 1) = box.received + 1
    rw [← Nat.add_assoc, h.dropped]
  · rw [hkept, List.countP_append, ← h.duplicated, List.countP_singleton]
    show _ = _ + if verdict.isDup = true then 1 else 0
    cases hdup : verdict.isDup <;> simp [Middlebox.keep, hdup]
  · rw [hkept, List.countP_append, ← h.reordered, List.countP_singleton]
    show _ = _ + if verdict.reordered = true then 1 else 0
    cases hreorder : verdict.reordered <;> simp [Middlebox.keep, hreorder]
  · rw [hkept, copiesOf_append, List.length_append, ← h.forwarded, copiesOf_singleton,
      List.length_replicate]
    rfl

theorem Counted.handle (h : Counted cfg box events) (payload : List U8) :
    Counted cfg (box.handle cfg payload).1 (events ++ (box.handle cfg payload).2.toList) := by
  have hhandled := handled cfg box payload
  generalize box.handle cfg payload = result at hhandled
  cases hhandled with
  | dropped hdraw =>
    obtain ⟨hrng, hverdicts⟩ := h.draws payload hdraw
    refine ⟨hrng, hverdicts, ?_, ?_, ?_, ?_⟩
    all_goals
      dsimp only [Option.toList_some]
      rw [keptOf_dropped]
    · rw [Nat.add_right_comm, h.dropped]
    · exact h.duplicated
    · exact h.reordered
    · exact h.forwarded
  | sent hdraw _ =>
    obtain ⟨hrng, hverdicts, hdropped, hduplicated, hreordered, hforwarded⟩ := h.keep payload hdraw
    exact ⟨hrng, hverdicts, hdropped, hduplicated, hreordered, hforwarded⟩
  | held hdraw _ =>
    obtain ⟨hrng, hverdicts, hdropped, hduplicated, hreordered, hforwarded⟩ := h.keep payload hdraw
    exact ⟨hrng, hverdicts, hdropped, hduplicated, hreordered, hforwarded⟩

theorem Carried.handle (h : Carried box events) (hmain : box.main = .receiving) (payload : List U8) :
    Carried (box.handle cfg payload).1 (events ++ (box.handle cfg payload).2.toList) := by
  have himmediate := h.immediate
  have hdelayed := h.delayed
  have hjoined (next : Nat) : ¬ box.main = .joining next := by
    rw [hmain]
    exact fun h => ImpairPc.noConfusion h
  have hexited : ¬ box.main = .exited := by
    rw [hmain]
    exact fun h => ImpairPc.noConfusion h
  have hhandled := handled cfg box payload
  generalize box.handle cfg payload = result at hhandled
  cases hhandled with
  | dropped hdraw =>
    refine ⟨?_, ?_, fun next h => absurd h (hjoined next), fun h => absurd h hexited⟩
    · dsimp only [Option.toList_some]
      rwa [keptOf_dropped, sentOf_arrived]
    · dsimp only [Option.toList_some]
      rwa [keptOf_dropped, sentOf_arrived]
  | @sent verdict rng hdraw hundelayed =>
    have hkept : keptOf (events ++ [.arrived payload (some verdict)]) =
        keptOf events ++ [(payload, verdict)] := keptOf_snoc events _
    refine ⟨?_, ?_, fun next h => ImpairPc.noConfusion h, fun h => ImpairPc.noConfusion h⟩
    · have hnew : undelayedOf (keptOf events ++ [(payload, verdict)]) =
          undelayedOf (keptOf events) ++ [(payload, verdict)] := by
        simp [undelayedOf, hundelayed]
      dsimp only [Option.toList_some]
      rw [hkept, hnew, sentOf_arrived, copiesOf_append, copiesOf_singleton, ← himmediate, hmain]
      exact congrArg (· ++ _) (List.append_nil _).symm
    · have hold : delayedOf (keptOf events ++ [(payload, verdict)]) = delayedOf (keptOf events) := by
        simp [delayedOf, hundelayed]
      dsimp only [Option.toList_some]
      rw [hkept, hold, sentOf_arrived]
      exact hdelayed
  | @held verdict rng hdraw hundelayed =>
    have hkept : keptOf (events ++ [.arrived payload (some verdict)]) =
        keptOf events ++ [(payload, verdict)] := keptOf_snoc events _
    refine ⟨?_, ?_, fun next h => absurd h (hjoined next), fun h => absurd h hexited⟩
    · have hold : undelayedOf (keptOf events ++ [(payload, verdict)]) = undelayedOf (keptOf events) := by
        simp [undelayedOf, hundelayed]
      dsimp only [Option.toList_some]
      rw [hkept, hold, sentOf_arrived]
      exact himmediate
    · have hnew : delayedOf (keptOf events ++ [(payload, verdict)]) =
          delayedOf (keptOf events) ++ [(payload, verdict)] := by
        simp [delayedOf, hundelayed]
      have hpending : inFlightPending { box.keep verdict rng with
          inFlight := box.inFlight ++ [{ payload := payload, copies := verdict.sendCount }] } =
            box.inFlightPending ++ List.replicate verdict.sendCount payload := by
        unfold inFlightPending
        rw [List.flatMap_append]
        exact congrArg (_ ++ ·) (List.append_nil _)
      dsimp only [Option.toList_some]
      rw [hkept, hnew, sentOf_arrived, hpending, copiesOf_append, copiesOf_singleton,
        ← List.append_assoc]
      exact hdelayed.append_right _

/-! ### The main thread -/

/-- The main thread goes on without sending, and holds nothing. -/
theorem Carried.onward (h : Carried box events) (hpending : box.main.pending = []) {main : ImpairPc}
    (hmain : main.pending = [])
    (hjoined : ∀ next, main = .joining next → ∀ held ∈ box.inFlight.take next, held.copies = 0)
    (hexited : main = .exited → ∀ held ∈ box.inFlight, held.copies = 0) :
    Carried { box with main := main } events := by
  refine ⟨?_, h.delayed, hjoined, hexited⟩
  have himmediate := h.immediate
  rwa [hpending, ← hmain] at himmediate

theorem Counted.mainStep (h : Counted cfg box events) (datagram : Option (List U8)) :
    Counted cfg (box.mainStep cfg datagram).1 (events ++ (box.mainStep cfg datagram).2.toList) := by
  unfold Middlebox.mainStep
  cases box.main with
  | receiving =>
    cases datagram with
    | some datagram => exact h.handle _
    | none => exact h.quiet rfl rfl rfl rfl rfl rfl rfl rfl
  | sending payload copies =>
    cases copies with
    | succ copies => exact h.quiet rfl rfl rfl rfl rfl rfl rfl rfl
    | zero => exact h.quiet rfl rfl rfl rfl rfl rfl rfl rfl
  | joining next =>
    dsimp only
    cases box.inFlight[next]? with
    | none => exact h.quiet rfl rfl rfl rfl rfl rfl rfl rfl
    | some held =>
      dsimp only
      split_ifs
      · exact h.quiet rfl rfl rfl rfl rfl rfl rfl rfl
      · exact h.quiet rfl rfl rfl rfl rfl rfl rfl rfl
  | exited => exact h.quiet rfl rfl rfl rfl rfl rfl rfl rfl

theorem Carried.sends (h : Carried box events) {payload : List U8} {copies : Nat}
    (hmain : box.main = .sending payload (copies + 1)) :
    Carried { box with main := .sending payload copies } (events ++ [.sent payload false]) := by
  have himmediate := h.immediate
  have hkept : keptOf (events ++ [.sent payload false]) = keptOf events :=
    (keptOf_snoc events _).trans (List.append_nil _)
  have hsent : sentOf false (events ++ [.sent payload false]) = sentOf false events ++ [payload] :=
    sentOf_snoc events false _
  have hothers : sentOf true (events ++ [.sent payload false]) = sentOf true events :=
    (sentOf_snoc events true _).trans (List.append_nil _)
  refine ⟨?_, ?_, fun next h => ImpairPc.noConfusion h, fun h => ImpairPc.noConfusion h⟩
  · rw [hmain] at himmediate
    rw [hkept, hsent, List.append_assoc]
    exact himmediate
  · rw [hkept, hothers]
    exact h.delayed

theorem Carried.mainStep (h : Carried box events) (datagram : Option (List U8)) :
    Carried (box.mainStep cfg datagram).1 (events ++ (box.mainStep cfg datagram).2.toList) := by
  unfold Middlebox.mainStep
  cases hmain : box.main with
  | receiving =>
    cases datagram with
    | some datagram => exact h.handle hmain _
    | none =>
      simp only [Option.toList_none, List.append_nil]
      refine h.onward (by rw [hmain]; rfl) rfl ?_ fun h => ImpairPc.noConfusion h
      rintro _ hjoining held hmem
      obtain rfl := ImpairPc.joining.inj hjoining
      exact absurd hmem (List.not_mem_nil)
  | sending payload copies =>
    cases copies with
    | succ copies => exact h.sends hmain
    | zero =>
      simp only [Option.toList_none, List.append_nil]
      exact h.onward (by rw [hmain]; rfl) rfl (fun _ h => ImpairPc.noConfusion h)
        fun h => ImpairPc.noConfusion h
  | joining next =>
    have hpending : box.main.pending = [] := by
      rw [hmain]
      rfl
    have hjoined := h.joined next hmain
    dsimp only
    cases hheld : box.inFlight[next]? with
    | none =>
      simp only [Option.toList_none, List.append_nil]
      refine h.onward hpending rfl (fun _ h => ImpairPc.noConfusion h) fun _ => ?_
      rwa [List.take_of_length_le (List.getElem?_eq_none_iff.mp hheld)] at hjoined
    | some held =>
      dsimp only
      split_ifs with hcopies
      · simp only [Option.toList_none, List.append_nil]
        refine h.onward hpending rfl ?_ fun h => ImpairPc.noConfusion h
        rintro _ hjoining held' hmem
        obtain rfl := ImpairPc.joining.inj hjoining
        rw [List.take_add_one, hheld, Option.toList_some, List.mem_append, List.mem_singleton] at hmem
        rcases hmem with hmem | rfl
        · exact hjoined held' hmem
        · exact hcopies
      · simpa only [Option.toList_none, List.append_nil] using h
  | exited => simpa only [Option.toList_none, List.append_nil] using h

/-! ### The delayed threads -/

/-- A thread sends a copy, or the step changes nothing. -/
theorem flightStep_cases (box : Middlebox G) (i : Nat) :
    box.flightStep i = (box, none) ∨
      ∃ payload copies, box.inFlight[i]? = some { payload := payload, copies := copies + 1 } ∧
        box.flightStep i =
          ({ box with inFlight := box.inFlight.set i { payload := payload, copies := copies } },
            some (.sent payload true)) := by
  unfold flightStep
  rcases hheld : box.inFlight[i]? with _ | ⟨payload, _ | copies⟩
  · exact Or.inl rfl
  · exact Or.inl rfl
  · exact Or.inr ⟨payload, copies, rfl, rfl⟩

theorem Counted.flightStep (h : Counted cfg box events) (i : Nat) :
    Counted cfg (box.flightStep i).1 (events ++ (box.flightStep i).2.toList) := by
  rcases flightStep_cases box i with hstep | ⟨payload, copies, _, hstep⟩
  · rw [hstep]
    exact h.quiet rfl rfl rfl rfl rfl rfl rfl rfl
  · rw [hstep]
    exact h.quiet rfl rfl rfl rfl rfl rfl rfl rfl

/-- One element gives up the first item of its list. -/
theorem perm_flatMap_set {α β : Type} {f : α → List β} {b : β} {x y : α} (hf : f x = b :: f y) :
    ∀ {xs : List α} {i : Nat}, xs[i]? = some x →
      (b :: (xs.set i y).flatMap f).Perm (xs.flatMap f) := by
  intro xs
  induction xs with
  | nil => exact fun h => absurd h (by simp)
  | cons x' xs ih =>
    intro i hx
    cases i with
    | zero =>
      obtain rfl : x' = x := by simpa using hx
      rw [List.set_cons_zero, List.flatMap_cons, List.flatMap_cons, hf]
      exact List.Perm.refl _
    | succ i =>
      rw [List.set_cons_succ, List.flatMap_cons, List.flatMap_cons]
      exact List.perm_middle.symm.trans ((ih (by simpa using hx)).append_left _)

theorem Carried.flightStep (h : Carried box events) (i : Nat) :
    Carried (box.flightStep i).1 (events ++ (box.flightStep i).2.toList) := by
  rcases flightStep_cases box i with hstep | ⟨payload, copies, hheld, hstep⟩
  · rw [hstep, Option.toList_none, List.append_nil]
    exact h
  · have hkept : keptOf (events ++ [.sent payload true]) = keptOf events :=
      (keptOf_snoc events _).trans (List.append_nil _)
    have hsent : sentOf true (events ++ [.sent payload true]) = sentOf true events ++ [payload] :=
      sentOf_snoc events true _
    have hothers : sentOf false (events ++ [.sent payload true]) = sentOf false events :=
      (sentOf_snoc events false _).trans (List.append_nil _)
    have hpending : (payload :: (box.inFlight.set i { payload := payload, copies := copies }).flatMap
        Held.pending).Perm box.inFlightPending := perm_flatMap_set (f := Held.pending) rfl hheld
    rw [hstep]
    refine ⟨?_, ?_, ?_, ?_⟩
    · dsimp only [Option.toList_some]
      rw [hkept, hothers]
      exact h.immediate
    · dsimp only [Option.toList_some]
      rw [hkept, hsent, List.append_assoc]
      exact (hpending.append_left _).trans h.delayed
    · -- a thread that has been joined has nothing left to send
      intro next hmain held hmem
      have hjoined := h.joined next hmain
      have hge : next ≤ i := by
        by_contra hlt
        have htake : (box.inFlight.take next)[i]? = some { payload := payload, copies := copies + 1 } := by
          rw [List.getElem?_take_of_lt (Nat.lt_of_not_le hlt), hheld]
        exact Nat.succ_ne_zero copies (hjoined _ (List.mem_of_getElem? htake))
      rw [List.take_set_of_le hge] at hmem
      exact hjoined held hmem
    · intro hmain
      exact absurd (h.exited hmain _ (List.mem_of_getElem? hheld)) (Nat.succ_ne_zero copies)

end Step

/-! ### Whole runs -/

variable (G cfg) in
theorem counted_run (moves : List ImpairMove) :
    Counted cfg ((impairSystem G cfg).run moves) ((impairSystem G cfg).events moves) := by
  refine DetSystem.events_induction (M := impairSystem G cfg)
    (P := fun events box => Counted cfg box events) counted_initial ?_ moves
  intro events box move h
  cases move with
  | main datagram => exact Counted.mainStep h datagram
  | flight i => exact Counted.flightStep h i

variable (G cfg) in
theorem carried_run (moves : List ImpairMove) :
    Carried ((impairSystem G cfg).run moves) ((impairSystem G cfg).events moves) := by
  refine DetSystem.events_induction (M := impairSystem G cfg)
    (P := fun events box => Carried box events) carried_initial ?_ moves
  intro events box move h
  cases move with
  | main datagram => exact Carried.mainStep h datagram
  | flight i => exact Carried.flightStep h i

end Middlebox

/-! ## What a run of the middlebox does -/

section Runs

variable (G : Generator) (cfg : ImpairConfig)

theorem copiesOf_length (kept : List (List U8 × Verdict)) :
    (copiesOf kept).length = kept.length + kept.countP fun entry => entry.2.isDup := by
  induction kept with
  | nil => rfl
  | cons entry kept ih =>
    obtain ⟨payload, verdict⟩ := entry
    show (List.replicate verdict.sendCount payload ++ copiesOf kept).length = _
    rw [List.length_append, ih, List.length_replicate, List.countP_cons, List.length_cons]
    unfold Verdict.sendCount
    dsimp only
    split_ifs <;> omega

/-- What is kept of the datagrams received. -/
theorem keptOf_eq (events : List ImpairEvent) :
    keptOf events = (arrivalsOf events).filterMap fun arrival => arrival.2.map (arrival.1, ·) := by
  unfold keptOf arrivalsOf
  rw [List.filterMap_filterMap]
  congr 1
  funext event
  rcases event with ⟨payload, _ | verdict⟩ | ⟨payload, delayed⟩ <;> rfl

/-- Every verdict is a draw. -/
theorem kept_drawn (moves : List ImpairMove) :
    ∀ entry ∈ keptOf ((impairSystem G cfg).events moves),
      ∃ rng, (G.draw cfg rng).1 = some entry.2 := by
  intro entry hmem
  rw [keptOf_eq] at hmem
  obtain ⟨⟨payload, verdict⟩, harrival, hentry⟩ := List.mem_filterMap.mp hmem
  obtain ⟨verdict', rfl, rfl⟩ := Option.map_eq_some_iff.mp hentry
  have hverdict : some verdict' ∈ (arrivalsOf ((impairSystem G cfg).events moves)).map Prod.snd :=
    List.mem_map.mpr ⟨_, harrival, rfl⟩
  rw [(Middlebox.counted_run G cfg moves).verdicts] at hverdict
  obtain ⟨n, _, hn⟩ := List.mem_map.mp hverdict
  exact ⟨_, hn⟩

/-- When the process has exited, every thread has sent its copies. -/
theorem sent_of_exited (moves : List ImpairMove)
    (hexited : Middlebox.main ((impairSystem G cfg).run moves) = .exited) :
    let events := (impairSystem G cfg).events moves
    sentOf false events = copiesOf (undelayedOf (keptOf events)) ∧
      (outputsOf events).Perm (copiesOf (keptOf events)) := by
  intro events
  have h := Middlebox.carried_run G cfg moves
  have himmediate := h.immediate
  have hdelayed := h.delayed
  have hnothing : Middlebox.inFlightPending ((impairSystem G cfg).run moves) = [] := by
    refine List.flatMap_eq_nil_iff.mpr fun held hmem => ?_
    unfold Held.pending
    rw [h.exited hexited held hmem, List.replicate_zero]
  rw [hexited, show ImpairPc.exited.pending = [] from rfl, List.append_nil] at himmediate
  rw [hnothing, List.append_nil] at hdelayed
  refine ⟨himmediate, (outputsOf_perm events).trans ?_⟩
  rw [himmediate]
  exact (hdelayed.append_left _).trans (copiesOf_perm _)

/-- **Conservation.** When the process has exited, it has sent, up to their order, the copies of the
datagrams that it did not drop, those that it did not delay in the order of reception, the numbers it prints
balance, and every datagram that it counted as reordered it has delayed by 40 ms or more. -/
theorem middlebox_accounts (moves : List ImpairMove)
    (hexited : Middlebox.main ((impairSystem G cfg).run moves) = .exited) :
    let box : Middlebox G := (impairSystem G cfg).run moves
    let events := (impairSystem G cfg).events moves
    (outputsOf events).Perm (copiesOf (keptOf events)) ∧
    sentOf false events = copiesOf (undelayedOf (keptOf events)) ∧
    box.received = (arrivalsOf events).length ∧
    box.received = box.dropped + (keptOf events).length ∧
    box.forwarded = (outputsOf events).length ∧
    box.forwarded + box.dropped = box.received + box.duplicated ∧
    box.reordered ≤ ((delayedOf (keptOf events)).length) ∧
    box.reordered = (keptOf events).countP (fun entry => entry.2.reordered) ∧
    ∀ entry ∈ keptOf events, 0 ≤ entry.2.delayMs ∧ entry.2.delayMs ≤ 0x7FFFFFFF ∧
      (entry.2.reordered = true → kReorderExtraDelayMs ≤ entry.2.delayMs) := by
  intro box events
  obtain ⟨himmediate, hperm⟩ := sent_of_exited G cfg moves hexited
  have h : Middlebox.Counted cfg box events := Middlebox.counted_run G cfg moves
  have hlength := copiesOf_length (keptOf events)
  have hdropped := h.dropped
  have hforwarded := h.forwarded
  have hduplicated := h.duplicated
  refine ⟨hperm, himmediate, ?_, hdropped.symm, hforwarded.trans hperm.length_eq.symm, ?_, ?_, h.reordered,
    fun entry hmem => ?_⟩
  · have hverdicts := congrArg List.length h.verdicts
    rw [List.length_map, List.length_map, List.length_range] at hverdicts
    exact hverdicts.symm
  · omega
  · rw [h.reordered]
    unfold delayedOf
    rw [← List.countP_eq_length_filter]
    refine List.countP_mono_left fun entry hmem hreordered => ?_
    obtain ⟨rng, hdraw⟩ := kept_drawn G cfg moves entry hmem
    have hdelay : 40 ≤ entry.2.delayMs := Generator.draw_reordered hdraw hreordered
    have hlate : entry.2.undelayed = false := decide_eq_false (by omega)
    rw [hlate]
    rfl
  · obtain ⟨rng, hdraw⟩ := kept_drawn G cfg moves entry hmem
    obtain ⟨hlow, hhigh⟩ := Generator.draw_delayMs hdraw
    exact ⟨hlow, hhigh, Generator.draw_reordered hdraw⟩

/-- **The seed.** Two runs that received the same datagrams print the same numbers and decide the same for
each of them, whatever the order in which the threads moved; when both have exited, they have sent the same
datagrams. -/
theorem same_seed_same_report (moves moves' : List ImpairMove)
    (hsame : (arrivalsOf ((impairSystem G cfg).events moves)).map Prod.fst =
      (arrivalsOf ((impairSystem G cfg).events moves')).map Prod.fst) :
    let box : Middlebox G := (impairSystem G cfg).run moves
    let box' : Middlebox G := (impairSystem G cfg).run moves'
    let events := (impairSystem G cfg).events moves
    let events' := (impairSystem G cfg).events moves'
    (box.received, box.dropped, box.duplicated, box.reordered, box.forwarded) =
      (box'.received, box'.dropped, box'.duplicated, box'.reordered, box'.forwarded) ∧
    arrivalsOf events = arrivalsOf events' ∧
    keptOf events = keptOf events' ∧
    (box.main = .exited → box'.main = .exited →
      sentOf false events = sentOf false events' ∧ (outputsOf events).Perm (outputsOf events')) := by
  intro box box' events events'
  have h : Middlebox.Counted cfg box events := Middlebox.counted_run G cfg moves
  have h' : Middlebox.Counted cfg box' events' := Middlebox.counted_run G cfg moves'
  have hreceived : box.received = box'.received := by
    have hlength := congrArg List.length h.verdicts
    have hlength' := congrArg List.length h'.verdicts
    have hboth := congrArg List.length hsame
    simp only [List.length_map, List.length_range] at hlength hlength' hboth
    exact hlength.symm.trans (hboth.trans hlength')
  have harrivals : arrivalsOf events = arrivalsOf events' := by
    have hverdicts : (arrivalsOf events).map Prod.snd = (arrivalsOf events').map Prod.snd := by
      rw [h.verdicts, h'.verdicts, hreceived]
    exact (List.zip_of_prod hsame hverdicts).trans (List.zip_of_prod rfl rfl).symm
  have hkept : keptOf events = keptOf events' := by
    rw [keptOf_eq, keptOf_eq, harrivals]
  have hdropped : box.dropped = box'.dropped := by
    have hall := h.dropped
    have hall' := h'.dropped
    rw [← hkept] at hall'
    omega
  refine ⟨?_, harrivals, hkept, fun hexited hexited' => ?_⟩
  · rw [hreceived, hdropped, h.duplicated, h'.duplicated, h.reordered, h'.reordered, h.forwarded,
      h'.forwarded, hkept]
  · obtain ⟨himmediate, hperm⟩ := sent_of_exited G cfg moves hexited
    obtain ⟨himmediate', hperm'⟩ := sent_of_exited G cfg moves' hexited'
    refine ⟨?_, ?_⟩
    · rw [himmediate, himmediate']
      exact congrArg (fun kept => copiesOf (undelayedOf kept)) hkept
    · exact hperm.trans ((List.Perm.of_eq (congrArg copiesOf hkept)).trans hperm'.symm)

section Undelayed

variable {G cfg}

/-- Without loss every datagram is kept. -/
theorem kept_all (hloss : cfg.loss ≤ 0) (moves : List ImpairMove) :
    (keptOf ((impairSystem G cfg).events moves)).map Prod.fst =
      (arrivalsOf ((impairSystem G cfg).events moves)).map Prod.fst := by
  have hkept : ∀ arrival ∈ arrivalsOf ((impairSystem G cfg).events moves),
      ∃ verdict, arrival.2 = some verdict := by
    intro arrival hmem
    have hverdict := List.mem_map_of_mem (f := Prod.snd) hmem
    rw [(Middlebox.counted_run G cfg moves).verdicts] at hverdict
    obtain ⟨n, _, hn⟩ := List.mem_map.mp hverdict
    obtain ⟨verdict, hdraw⟩ := Generator.draw_of_loss (G := G) hloss
      (G.after cfg (G.seeded cfg.seed) n)
    exact ⟨verdict, hn.symm.trans hdraw⟩
  rw [keptOf_eq]
  generalize arrivalsOf ((impairSystem G cfg).events moves) = all at hkept
  induction all with
  | nil => rfl
  | cons arrival all ih =>
    obtain ⟨payload, verdict⟩ := arrival
    obtain ⟨verdict', rfl⟩ := hkept (payload, verdict) List.mem_cons_self
    exact congrArg (List.cons payload) (ih fun arrival hmem =>
      hkept arrival (List.mem_cons_of_mem _ hmem))

theorem kept_undelayed (hjitter : cfg.jitterMs ≤ 0) (hreorder : cfg.reorder ≤ 0)
    (moves : List ImpairMove) :
    ∀ entry ∈ keptOf ((impairSystem G cfg).events moves), entry.2.delayMs ≤ 0 := by
  intro entry hmem
  obtain ⟨rng, hdraw⟩ := kept_drawn G cfg moves entry hmem
  exact Generator.draw_undelayed hjitter hreorder hdraw

/-- Without jitter and reordering, what was sent and what the main thread holds are the copies of the
datagrams received, in order. -/
theorem sent_in_order (hjitter : cfg.jitterMs ≤ 0) (hreorder : cfg.reorder ≤ 0)
    (moves : List ImpairMove) :
    outputsOf ((impairSystem G cfg).events moves) ++
        ImpairPc.pending (Middlebox.main ((impairSystem G cfg).run moves)) =
      copiesOf (keptOf ((impairSystem G cfg).events moves)) := by
  have h := Middlebox.carried_run G cfg moves
  have hundelayed : ∀ entry ∈ keptOf ((impairSystem G cfg).events moves),
      entry.2.undelayed = true := fun entry hmem =>
    decide_eq_true (kept_undelayed hjitter hreorder moves entry hmem)
  have hall : undelayedOf (keptOf ((impairSystem G cfg).events moves)) =
      keptOf ((impairSystem G cfg).events moves) := List.filter_eq_self.mpr hundelayed
  have hnone : delayedOf (keptOf ((impairSystem G cfg).events moves)) = [] := by
    refine List.filter_eq_nil_iff.mpr fun entry hmem => ?_
    rw [hundelayed entry hmem]
    exact Bool.false_ne_true
  have himmediate := h.immediate
  have hdelayed := h.delayed
  rw [hall] at himmediate
  rw [hnone] at hdelayed
  have hothers : sentOf true ((impairSystem G cfg).events moves) = [] :=
    (List.append_eq_nil_iff.mp (List.perm_nil.mp hdelayed)).1
  rw [← himmediate]
  congr 1
  -- nothing is sent by the other threads
  generalize (impairSystem G cfg).events moves = events at hothers
  induction events with
  | nil => rfl
  | cons event events ih =>
    cases event with
    | arrived payload verdict => exact ih hothers
    | sent payload delayed =>
      cases delayed with
      | false => exact congrArg (List.cons payload) (ih hothers)
      | true => exact absurd hothers (List.cons_ne_nil _ _)

theorem copiesOf_once {kept : List (List U8 × Verdict)}
    (honce : ∀ entry ∈ kept, entry.2.isDup = false) : copiesOf kept = kept.map Prod.fst := by
  induction kept with
  | nil => rfl
  | cons entry kept ih =>
    obtain ⟨payload, verdict⟩ := entry
    have hdup : verdict.isDup = false := honce (payload, verdict) List.mem_cons_self
    have hcount : verdict.sendCount = 1 := by
      unfold Verdict.sendCount
      rw [hdup]
      rfl
    show List.replicate verdict.sendCount payload ++ copiesOf kept = _
    rw [hcount, ih fun entry hmem => honce entry (List.mem_cons_of_mem _ hmem)]
    rfl

end Undelayed

/-- **Passthrough.** With every impairment off, in every state that is reached, the datagrams sent and the
one that the main thread is about to send are the datagrams received, in order. -/
theorem passthrough (hloss : cfg.loss ≤ 0) (hreorder : cfg.reorder ≤ 0) (hjitter : cfg.jitterMs ≤ 0)
    (hdup : cfg.dup ≤ 0) (moves : List ImpairMove) :
    let box : Middlebox G := (impairSystem G cfg).run moves
    let events := (impairSystem G cfg).events moves
    outputsOf events ++ box.main.pending = (arrivalsOf events).map Prod.fst ∧
    box.forwarded = box.received ∧ box.dropped = 0 ∧ box.duplicated = 0 ∧ box.reordered = 0 := by
  intro box events
  have h : Middlebox.Counted cfg box events := Middlebox.counted_run G cfg moves
  have hall : (keptOf events).map Prod.fst = (arrivalsOf events).map Prod.fst := kept_all hloss moves
  have honce : ∀ entry ∈ keptOf events, entry.2.isDup = false := by
    intro entry hmem
    obtain ⟨rng, hdraw⟩ := kept_drawn G cfg moves entry hmem
    exact Generator.draw_once hdup hdraw
  have hcopies := copiesOf_once honce
  have hreceived : (keptOf events).length = box.received := by
    have hlength := congrArg List.length h.verdicts
    have hkept := congrArg List.length hall
    simp only [List.length_map, List.length_range] at hlength hkept
    exact hkept.trans hlength
  refine ⟨?_, ?_, ?_, ?_, ?_⟩
  · exact (sent_in_order hjitter hreorder moves).trans (hcopies.trans hall)
  · rw [h.forwarded, hcopies, List.length_map, hreceived]
  · have hdropped := h.dropped
    omega
  · rw [h.duplicated]
    refine List.countP_eq_zero.mpr fun entry hmem => ?_
    rw [honce entry hmem]
    exact Bool.false_ne_true
  · rw [h.reordered]
    refine List.countP_eq_zero.mpr fun entry hmem hreordered => ?_
    obtain ⟨rng, hdraw⟩ := kept_drawn G cfg moves entry hmem
    have hdelay : 40 ≤ entry.2.delayMs := Generator.draw_reordered hdraw hreordered
    have hundelayed := kept_undelayed hjitter hreorder moves entry hmem
    omega

end Runs

/-! ## A run in which everything is delayed and sent twice -/

/-- A generator to compute with. -/
def lcg : Generator where
  State := U32
  seeded := id
  unit rng := ((rng.toNat : Rat) / 2 ^ 32, 1664525 * rng + 1013904223)
  jitter bound rng := ((rng.toNat : Int) % (bound + 1), 1664525 * rng + 1013904223)
  unit_nonneg rng := by positivity
  unit_lt rng := by
    have hlt : (rng.toNat : Rat) < 2 ^ 32 := by exact_mod_cast rng.isLt
    exact (div_lt_one (by positivity)).mpr hlt
  jitter_nonneg bound rng hbound := Int.emod_nonneg _ (by omega)
  jitter_le bound rng hbound := Int.le_of_lt_add_one (Int.emod_lt_of_pos _ (by omega))

def delayedTwice : ImpairConfig := { reorder := 1, dup := 1 }

/-- The two datagrams are received, and then the copies are sent; or the first datagram is sent before the
second one is received. -/
def lateSession : List ImpairMove :=
  [.main (some [1]), .main (some [2]), .flight 1, .flight 0, .flight 0, .flight 1] ++
    List.replicate 4 (.main none)

def promptSession : List ImpairMove :=
  [.main (some [1]), .flight 0, .flight 0, .main (some [2]), .flight 1, .flight 1] ++
    List.replicate 4 (.main none)

theorem middlebox_accounts_example :
    let system := impairSystem lcg delayedTwice
    Middlebox.forwarded (system.run lateSession) = (outputsOf (system.events lateSession)).length ∧
      outputsOf (system.events lateSession) = [[2], [1], [1], [2]] := by
  obtain ⟨_, _, _, _, hforwarded, _⟩ :=
    middlebox_accounts lcg delayedTwice lateSession (by decide +kernel)
  exact ⟨hforwarded, by decide +kernel⟩

theorem same_seed_same_report_example :
    let system := impairSystem lcg delayedTwice
    (outputsOf (system.events lateSession)).Perm (outputsOf (system.events promptSession)) :=
  ((same_seed_same_report lcg delayedTwice lateSession promptSession (by decide +kernel)).2.2.2
    (by decide +kernel) (by decide +kernel)).2

theorem passthrough_example :
    let moves : List ImpairMove := [.main (some [1]), .main none, .main none, .main (some [2])]
    outputsOf ((impairSystem lcg {}).events moves) ++
      ImpairPc.pending (Middlebox.main ((impairSystem lcg {}).run moves)) = [[1], [2]] :=
  (passthrough lcg {} (by decide) (by decide) (by decide) (by decide) _).1.trans (by decide +kernel)

end RtpStreamer
