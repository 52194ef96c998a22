import RtpStreamer.Platform

/-!
# G.711 mu-law

`codec_ulaw.cpp`. Memoryless: each sample compands independently. The biased magnitude is never
negative, so it is a natural number here.
-/

namespace RtpStreamer

def kUlawBias : Nat := 132

def kUlawClip : Nat := 32635

/-- The segment search `for (mask = 0x4000; (magnitude & mask) == 0 && exponent > 0; mask >>= 1)
--exponent`. -/
def segmentExponent (magnitude : Nat) : (mask exponent : Nat) → Nat
  | _, 0 => 0
  | mask, exponent + 1 =>
    if magnitude &&& mask = 0 then segmentExponent magnitude (mask >>> 1) exponent else exponent + 1

def linearToUlaw (sample : I16) : U8 :=
  let sign : U8 := if sample.toInt < 0 then 0x80 else 0
  let magnitude := sample.toInt.natAbs
  let magnitude := if magnitude > kUlawClip then kUlawClip else magnitude
  let magnitude := magnitude + kUlawBias
  let exponent := segmentExponent magnitude 0x4000 7
  let mantissa := BitVec.ofNat 8 ((magnitude >>> (exponent + 3)) &&& 0x0F)
  let ulaw := sign ||| (BitVec.ofNat 8 exponent <<< 4) ||| mantissa
  ~~~ulaw

def ulawToLinear (code : U8) : I16 :=
  let code := ~~~code
  let sign := code &&& 0x80
  let exponent := ((code >>> 4) &&& 0x07).toNat
  let mantissa := (code &&& 0x0F).toNat
  let magnitude : Int := (((mantissa <<< 3) + kUlawBias) <<< exponent : Nat)
  let magnitude := magnitude - kUlawBias
  BitVec.ofInt 16 (if sign ≠ 0 then -magnitude else magnitude)

def ulawEncodeFrame (pcm : List I16) : List U8 := pcm.map linearToUlaw

/-- Decodes the first `numSamples` codes. -/
def ulawDecodeFrame (codes : List U8) (numSamples : Nat) : List I16 :=
  (codes.take numSamples).map ulawToLinear

@[simp] theorem ulawEncodeFrame_length (pcm : List I16) :
    (ulawEncodeFrame pcm).length = pcm.length := by
  simp [ulawEncodeFrame]

theorem ulawDecodeFrame_length_le (codes : List U8) (numSamples : Nat) :
    (ulawDecodeFrame codes numSamples).length ≤ numSamples := by
  unfold ulawDecodeFrame
  rw [List.length_map, List.length_take]
  exact Nat.min_le_left _ _

/-- Decoding reads only the codes it decodes. -/
theorem ulawDecodeFrame_congr {codes codes' : List U8} {numSamples : Nat}
    (h : codes.take numSamples = codes'.take numSamples) :
    ulawDecodeFrame codes numSamples = ulawDecodeFrame codes' numSamples := by
  simp only [ulawDecodeFrame, h]

/-- A decoded frame is the sample-wise reconstruction of the encoded one. -/
theorem ulawDecodeFrame_encode (pcm : List I16) :
    ulawDecodeFrame (ulawEncodeFrame pcm) pcm.length
      = pcm.map fun x => ulawToLinear (linearToUlaw x) := by
  rw [ulawDecodeFrame, List.take_of_length_le (by simp)]
  simp [ulawEncodeFrame]

/-- The extremes of the 16-bit range clip and come back with their sign. -/
example : (ulawToLinear (linearToUlaw 32767)).toInt = 32124 ∧
    (ulawToLinear (linearToUlaw (BitVec.ofInt 16 (-32768)))).toInt = -32124 := by decide

end RtpStreamer
