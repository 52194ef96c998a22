import RtpStreamer.Jitter.JitterBuffer

/-!
# The platform with an exact jitter estimate

The `double` of the estimate taken as a rational, so that the formulas of `update_jitter_estimate` can
be computed and compared without rounding.
-/

namespace RtpStreamer

/-- `jitter += (std::fabs(d) - jitter) / 16.0`. -/
def accumulateExact (jitter : Rat) (d : Int) : Rat := jitter + ((d.natAbs : Rat) - jitter) / 16

/-- `static_cast<int>(4.0 * jitter_ms)`, which truncates toward zero. This is the truncated value whether or
not it is an `int`; the conversion that is undefined when it is none is the one of `CheckedDepth.lean`. -/
def targetMsExact (jitter : Rat) : Int :=
  let jitterMs := jitter * 1000 / (kSampleRateHz : Rat)
  let target := 4 * jitterMs
  target.num.tdiv target.den

/-- The platform whose estimate is an exact rational; the gain of the concealed frames is left
open. -/
def exactPlatform (order : ByteOrder) (fade : Nat → I16 → I16) : Platform where
  byteOrder := order
  Double := Rat
  zero := 0
  accumulate := accumulateExact
  targetMs := targetMsExact
  fade := fade

end RtpStreamer
