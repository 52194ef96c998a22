import RtpStreamer.Jitter.Exact

/-!
# The adaptive depth with a checked conversion

`update_jitter_estimate` and the calls of the buffer once more, over the exact estimate, with the
conversion of the target depth as the language defines it: `static_cast<int>` of a `double` is
undefined when the truncated value is not an `int`. A computation that returns `none` has made such a
conversion.
-/

namespace RtpStreamer

/-- `static_cast<int>` of a `double`. -/
def castInt (x : Rat) : Option Int :=
  let truncated := x.num.tdiv x.den
  if -0x80000000 ≤ truncated ∧ truncated ≤ 0x7FFFFFFF then some truncated else none

variable {order : ByteOrder} {fade : Nat → I16 → I16}

/-- The part of `update_jitter_estimate` behind `if (have_prev_arrival_)`, for the distance `d`. -/
def adaptDepthChecked (options : Options) (est : JitterEstimate (exactPlatform order fade)) (d : Int) :
    Option (JitterEstimate (exactPlatform order fade)) := do
  let jitter : Rat := accumulateExact est.jitterEstimateSamples d
  let jitterMs : Rat := jitter * 1000 / (kSampleRateHz : Rat)
  let target ← castInt (4 * jitterMs)
  let target := clampMs target
  return { est with
    jitterEstimateSamples := jitter
    targetDepthMs := target
    targetDepthHistoryMs :=
      if options.collectStats then est.targetDepthHistoryMs ++ [target]
      else est.targetDepthHistoryMs }

def updateJitterEstimateChecked (options : Options) (est : JitterEstimate (exactPlatform order fade))
    (rtpTimestamp arrivalSamples : U32) : Option (JitterEstimate (exactPlatform order fade)) := do
  let dArrival : Int := (arrivalSamples.toNat : Int) - est.prevArrivalSamples.toNat
  let dTimestamp : Int := (rtpTimestamp.toNat : Int) - est.prevRtpTimestamp.toNat
  let est ← if est.havePrevArrival then adaptDepthChecked options est (dArrival - dTimestamp) else some est
  return { est with
    prevRtpTimestamp := rtpTimestamp
    prevArrivalSamples := arrivalSamples
    havePrevArrival := true }

namespace JitterBuffer

def pushChecked (jb : JitterBuffer (exactPlatform order fade)) (packet : Packet)
    (arrivalSamples : U32) : Option (JitterBuffer (exactPlatform order fade)) := do
  let estimate ← updateJitterEstimateChecked jb.options jb.estimate packet.rtpTimestamp arrivalSamples
  return { jb.noteArrival packet arrivalSamples with estimate := estimate }.place packet arrivalSamples

/-- The buffer after a call; only a push converts a depth. -/
def nextChecked (jb : JitterBuffer (exactPlatform order fade)) :
    Call → Option (JitterBuffer (exactPlatform order fade))
  | .push packet arrivalSamples => jb.pushChecked packet arrivalSamples
  | call => some (jb.next call)

/-- The buffer after a run, when every conversion of the run was defined. -/
def runChecked (order : ByteOrder) (fade : Nat → I16 → I16) (options : Options)
    (junk : Vector (Vector U8 kSlotPayloadBytes) kCapacity) (calls : List Call) :
    Option (JitterBuffer (exactPlatform order fade)) :=
  calls.foldlM nextChecked (fresh (exactPlatform order fade) options junk)

end JitterBuffer

end RtpStreamer
