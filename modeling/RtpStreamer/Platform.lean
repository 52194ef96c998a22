import Mathlib.Data.List.GetD
import Mathlib.Tactic.Common

/-!
# Machine words, the fixed audio format, and what the C++ leaves to the platform

The fixed-width integers of the source are bit vectors. A signed `int16_t` is the same bit vector
read through `BitVec.toInt`, so a `static_cast` between `uint16_t` and `int16_t` is the identity.

The constants are those of `audio_format.hpp`, `jitter_buffer.hpp`, `rtp_packet.hpp`, `codec.hpp` and
`udp_socket.hpp`.
-/

namespace RtpStreamer

/-- `uint8_t`. -/
abbrev U8 := BitVec 8

/-- `uint16_t`. -/
abbrev U16 := BitVec 16

/-- `uint32_t`. -/
abbrev U32 := BitVec 32

/-- `int16_t`, the type of a PCM sample; its value is `BitVec.toInt`. -/
abbrev I16 := BitVec 16

/-! ## The fixed audio format -/

def kSampleRateHz : Nat := 8000

def kFrameDurationMs : Nat := 20

/-- RTP's timestamp advances by this many samples per packet. -/
def kFrameSamples : Nat := kSampleRateHz * kFrameDurationMs / 1000

def kBytesPerSample : Nat := 2

/-- Bytes of one frame of raw PCM, the largest payload the sender builds. -/
def kFrameBytesPcm : Nat := kFrameSamples * kBytesPerSample

theorem kFrameSamples_eq : kFrameSamples = 160 := rfl

/-- One frame of playout: exactly 160 samples. -/
abbrev Frame := Vector I16 kFrameSamples

/-- A frame of zeros. -/
def silence : Frame := Vector.replicate kFrameSamples 0

/-- The first samples of a frame followed by zeros, which is what the decoding loops leave in `out`
after `for (i = num_samples; i < kFrameSamples; ++i) out[i] = 0`. -/
def padFrame (samples : List I16) : Frame := Vector.ofFn fun i => samples.getD i 0

theorem padFrame_toList {samples : List I16} (h : samples.length ≤ kFrameSamples) :
    (padFrame samples).toList = samples ++ List.replicate (kFrameSamples - samples.length) 0 := by
  apply List.ext_getElem
  · rw [Vector.length_toList, List.length_append, List.length_replicate]
    omega
  · intro i h1 h2
    simp only [padFrame, Vector.getElem_toList, Vector.getElem_ofFn]
    by_cases hi : i < samples.length
    · rw [List.getElem_append_left hi, List.getD_eq_getElem _ _ hi]
    · rw [List.getElem_append_right (by omega), List.getElem_replicate,
        List.getD_eq_default _ _ (by omega)]

theorem padFrame_nil : padFrame [] = silence := by
  ext i hi
  simp [padFrame, silence]

/-! ## The platform -/

/-- The byte order of a host, which decides what `memcpy` of a scalar reads and writes. -/
inductive ByteOrder where
  | little
  | big
  deriving DecidableEq, Repr

/-- What the jitter buffer takes from its platform: the byte order, and the `double` arithmetic of
the jitter estimate and of the concealment gain. The estimate is an abstract accumulator, so that a
result proved for every platform holds of IEEE doubles and of exact rationals alike. -/
structure Platform where
  /-- The byte order of the host. -/
  byteOrder : ByteOrder
  /-- The type of `jitter_estimate_samples_`. -/
  Double : Type
  /-- `0.0`. -/
  zero : Double
  /-- `jitter + (std::fabs(d) - jitter) / 16.0`. -/
  accumulate : Double → Int → Double
  /-- `static_cast<int>(4.0 * (jitter * 1000.0 / kSampleRateHz))`. -/
  targetMs : Double → Int
  /-- `static_cast<int16_t>(sample * std::pow(10.0, (kFadeDbPerConcealedFrame * k) / 20.0))`, the
  sample of the `k`-th concealed frame in a row. -/
  fade : Nat → I16 → I16

end RtpStreamer
