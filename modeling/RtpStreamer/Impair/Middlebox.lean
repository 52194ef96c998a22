import RtpStreamer.Run.Stuttering
import RtpStreamer.Sender.Sender

/-!
# The middlebox

`impair.cpp` behind its arguments: a UDP forwarder that drops, repeats and delays datagrams at random. The
main thread receives, and sends what it does not delay itself; every delayed datagram has a thread of its
own. A step of the system is one call of `receive` with its draws, one call of `send_to` or one `join`. How
long a delayed thread sleeps is left to the schedule.
-/

namespace RtpStreamer

/-- `kReorderExtraDelayMs`. -/
def kReorderExtraDelayMs : Int := 40

/-- `std::mt19937` and the two distributions. A `double` is the rational number it stands for. -/
structure Generator where
  State : Type
  /-- `std::mt19937 rng(seed)`. -/
  seeded : U32 → State
  /-- `unit(rng)`, which lies in the interval from 0 to 1, with 1 left out. -/
  unit : State → Rat × State
  /-- `jitter_dist(rng)`, which lies between 0 and its bound. -/
  jitter : Int → State → Int × State
  unit_nonneg : ∀ rng, 0 ≤ (unit rng).1
  unit_lt : ∀ rng, (unit rng).1 < 1
  jitter_nonneg : ∀ bound rng, 0 ≤ bound → 0 ≤ (jitter bound rng).1
  jitter_le : ∀ bound rng, 0 ≤ bound → (jitter bound rng).1 ≤ bound

/-- The options that the main loop reads. -/
structure ImpairConfig where
  loss : Rat := 0
  reorder : Rat := 0
  jitterMs : Int := 0
  dup : Rat := 0
  seed : U32 := 42
  /-- With a longer jitter the addition of `kReorderExtraDelayMs`, in `int`, may overflow. -/
  jitterMs_le : jitterMs + kReorderExtraDelayMs ≤ 0x7FFFFFFF := by decide

/-- What becomes of a datagram that is not dropped. -/
structure Verdict where
  delayMs : Int
  reordered : Bool
  isDup : Bool

def Verdict.sendCount (verdict : Verdict) : Nat := if verdict.isDup then 2 else 1

/-- The draws for one datagram: `none` drops it. -/
def Generator.draw (G : Generator) (cfg : ImpairConfig) (rng : G.State) : Option Verdict × G.State :=
  let (loss, rng) := G.unit rng
  if loss < cfg.loss then (none, rng)
  else
    let (delayMs, rng) := if cfg.jitterMs > 0 then G.jitter cfg.jitterMs rng else (0, rng)
    let (reorder, rng) := G.unit rng
    let (dup, rng) := G.unit rng
    (some {
      delayMs := if reorder < cfg.reorder then delayMs + kReorderExtraDelayMs else delayMs
      reordered := decide (reorder < cfg.reorder)
      isDup := decide (dup < cfg.dup) }, rng)

/-- A thread of `in_flight`: what it holds, and the copies that it has still to send. -/
structure Held where
  payload : List U8
  copies : Nat

/-- What the main thread does next. -/
inductive ImpairPc where
  | receiving
  | sending (payload : List U8) (copies : Nat)
  | joining (next : Nat)
  | exited
  deriving DecidableEq

structure Middlebox (G : Generator) where
  rng : G.State
  received : Nat := 0
  dropped : Nat := 0
  duplicated : Nat := 0
  reordered : Nat := 0
  forwarded : Nat := 0
  inFlight : List Held := []
  main : ImpairPc := .receiving

/-- The main thread moves, with what `receive` returns, `none` when it times out, or a delayed thread. -/
inductive ImpairMove where
  | main (datagram : Option (List U8))
  | flight (i : Nat)

/-- A datagram arrives and its draws are made, or a copy of one is sent. -/
inductive ImpairEvent where
  | arrived (payload : List U8) (verdict : Option Verdict)
  | sent (payload : List U8) (delayed : Bool)

namespace Middlebox

variable {G : Generator}

/-- The body of the loop behind `receive`, up to the sending. -/
def handle (cfg : ImpairConfig) (box : Middlebox G) (payload : List U8) :
    Middlebox G × Option ImpairEvent :=
  let (verdict, rng) := G.draw cfg box.rng
  let box := { box with rng := rng, received := box.received + 1 }
  match verdict with
  | none => ({ box with dropped := box.dropped + 1 }, some (.arrived payload none))
  | some verdict =>
    let box := { box with
      reordered := box.reordered + verdict.reordered.toNat
      duplicated := box.duplicated + verdict.isDup.toNat
      forwarded := box.forwarded + verdict.sendCount }
    if verdict.delayMs ≤ 0 then
      ({ box with main := .sending payload verdict.sendCount }, some (.arrived payload (some verdict)))
    else
      ({ box with
          inFlight := box.inFlight ++ [{ payload := payload, copies := verdict.sendCount }] },
        some (.arrived payload (some verdict)))

def mainStep (cfg : ImpairConfig) (box : Middlebox G) (datagram : Option (List U8)) :
    Middlebox G × Option ImpairEvent :=
  match box.main with
  | .receiving =>
    match datagram with
    | some datagram => box.handle cfg (datagram.take kMaxDatagramBytes)
    | none => ({ box with main := .joining 0 }, none)
  | .sending payload (copies + 1) =>
    ({ box with main := .sending payload copies }, some (.sent payload false))
  | .sending _ 0 => ({ box with main := .receiving }, none)
  | .joining next =>
    match box.inFlight[next]? with
    | some held =>
      if held.copies = 0 then ({ box with main := .joining (next + 1) }, none) else (box, none)
    | none => ({ box with main := .exited }, none)
  | .exited => (box, none)

def flightStep (box : Middlebox G) (i : Nat) : Middlebox G × Option ImpairEvent :=
  match box.inFlight[i]? with
  | some { payload := payload, copies := copies + 1 } =>
    ({ box with inFlight := box.inFlight.set i { payload := payload, copies := copies } },
      some (.sent payload true))
  | _ => (box, none)

def step (cfg : ImpairConfig) (box : Middlebox G) : ImpairMove → Middlebox G × Option ImpairEvent
  | .main datagram => box.mainStep cfg datagram
  | .flight i => box.flightStep i

end Middlebox

/-- The middlebox with its threads. -/
def impairSystem (G : Generator) (cfg : ImpairConfig) :
    DetSystem ImpairMove (Option ImpairEvent) where
  State := Middlebox G
  init := { rng := G.seeded cfg.seed }
  next := fun box move => (box.step cfg move).1
  obs := fun box move => (box.step cfg move).2

/-! ## What a run has done -/

namespace ImpairEvent

def arrival : ImpairEvent → Option (List U8 × Option Verdict)
  | .arrived payload verdict => some (payload, verdict)
  | .sent _ _ => none

def kept : ImpairEvent → Option (List U8 × Verdict)
  | .arrived payload (some verdict) => some (payload, verdict)
  | .arrived _ none | .sent _ _ => none

/-- What is sent by the main thread, or by the others. -/
def sentBy (delayed : Bool) : ImpairEvent → Option (List U8)
  | .sent payload delayed' => if delayed' = delayed then some payload else none
  | .arrived _ _ => none

def output : ImpairEvent → Option (List U8)
  | .sent payload _ => some payload
  | .arrived _ _ => none

end ImpairEvent

/-- The copies that are to be sent of the datagrams with these verdicts. -/
def copiesOf (kept : List (List U8 × Verdict)) : List (List U8) :=
  kept.flatMap fun (payload, verdict) => List.replicate verdict.sendCount payload

end RtpStreamer
