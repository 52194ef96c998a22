import RtpStreamer.Platform
import RtpStreamer.Signed.CheckedSigned

/-!
# The playout clock

`samples_since` and `add_millis` of `receiver.cpp`, and the deadlines of the playout thread. `long`,
`int64_t` and `time_t` have 64 bits; a computation returns `none` when one of its signed operations
overflows.
-/

namespace RtpStreamer

open CheckedSigned

/-- `int64_t`, and `long` and `time_t` as well; its value is `BitVec.toInt`. -/
abbrev I64 := BitVec 64

structure Timespec where
  tvSec : I64 := 0
  tvNsec : I64 := 0
  deriving DecidableEq

def samplesSince (start now : Timespec) : Option U32 := do
  let secDiff ← signed 64 (now.tvSec.toInt - start.tvSec.toInt)
  let nsecDiff ← signed 64 (now.tvNsec.toInt - start.tvNsec.toInt)
  let secNs ← signed 64 (secDiff.toInt * 1000000000)
  let totalNs ← signed 64 (secNs.toInt + nsecDiff.toInt)
  let totalNs : I64 := if totalNs.toInt < 0 then 0 else totalNs
  let scaled ← signed 64 (totalNs.toInt * kSampleRateHz)
  let samples ← signed 64 (scaled.toInt.tdiv 1000000000)
  return samples.setWidth 32

/-- `while (ts.tv_nsec >= 1000000000L)`: one second moves from the nanoseconds in each round. -/
def carrySeconds (ts : Timespec) : Option Timespec :=
  if ts.tvNsec.toInt ≥ 1000000000 then
    match _round : signed 64 (ts.tvNsec.toInt - 1000000000) with
    | none => none
    | some nsec => (signed 64 (ts.tvSec.toInt + 1)).bind fun sec =>
      carrySeconds { tvSec := sec, tvNsec := nsec }
  else some ts
termination_by ts.tvNsec.toInt.toNat
decreasing_by
  have hnsec := signed_eq_some_iff.mp ‹signed 64 (ts.tvNsec.toInt - 1000000000) = some nsec›
  show nsec.toInt.toNat < ts.tvNsec.toInt.toNat
  omega

def addMillis (ts : Timespec) (millis : I64) : Option Timespec := do
  let nanos ← signed 64 (millis.toInt * 1000000)
  let nsec ← signed 64 (ts.tvNsec.toInt + nanos.toInt)
  carrySeconds { ts with tvNsec := nsec }

/-- The deadline of the playout thread in round `k` of its loop, and `processStart` before the first. -/
def deadlineAfter (processStart : Timespec) : (k : Nat) → Option Timespec
  | 0 => some processStart
  | k + 1 =>
    (deadlineAfter processStart k).bind fun deadline =>
      addMillis deadline (BitVec.ofNat 64 kFrameDurationMs)

/-! ## Time as a number -/

namespace Timespec

/-- The time in nanoseconds. -/
def nanos (ts : Timespec) : Int := ts.tvSec.toInt * 1000000000 + ts.tvNsec.toInt

/-- The nanoseconds are less than a second. -/
def Normalized (ts : Timespec) : Prop := 0 ≤ ts.tvNsec.toInt ∧ ts.tvNsec.toInt < 1000000000

instance : DecidablePred Normalized := fun ts =>
  inferInstanceAs (Decidable (0 ≤ ts.tvNsec.toInt ∧ ts.tvNsec.toInt < 1000000000))

end Timespec

/-- After `k` rounds the deadline is normalized and `20 k` milliseconds behind the start, and the clock
shows 160 samples a round. -/
def ClockExact (processStart : Timespec) (k : Nat) : Prop :=
  ∃ deadline, deadlineAfter processStart k = some deadline ∧ deadline.Normalized ∧
    deadline.nanos = processStart.nanos + kFrameDurationMs * k * 1000000 ∧
    samplesSince processStart deadline = some (BitVec.ofNat 32 (kFrameSamples * k))

end RtpStreamer
