import RtpStreamer.Packet.Proofs.RtpPacketProofs
import RtpStreamer.Codec.Proofs.AdpcmProofs
import RtpStreamer.Sender.Proofs.FramingProofs

/-!
# The datagrams of the sender

The loop cuts the samples into frames of 160 and sends frame `i` in datagram `i`, numbered from the
random start, with the payload of the codec in the state that the earlier frames left. No frame is too
large for a datagram.
-/

namespace RtpStreamer

/-! ## The frames of a signal -/

/-- The `i`-th frame: 160 samples, or what is left of them. -/
def frameAt (samples : List I16) (i : Nat) : List I16 :=
  (samples.drop (kFrameSamples * i)).take kFrameSamples

/-- The number of frames, `ceil(|samples| / 160)`. -/
def frameCount (samples : List I16) : Nat := (samples.length + kFrameSamples - 1) / kFrameSamples

/-- The ADPCM state before frame `i`. -/
def stateBefore (order : ByteOrder) (codec : CodecName) (state : AdpcmState) (samples : List I16)
    (i : Nat) : AdpcmState :=
  (List.range i).foldl (fun state j => (framePayload order codec state (frameAt samples j)).2) state

/-- The packet the receiver should parse from datagram `i`. -/
def sentPacket (order : ByteOrder) (codec : CodecName) (sender : Sender) (samples : List I16)
    (i : Nat) : ParsedPacket where
  header := {
    marker := sender.firstPacket && i == 0
    payloadType := sender.header.payloadType
    sequenceNumber := sender.header.sequenceNumber + BitVec.ofNat 16 i
    timestamp := sender.header.timestamp + BitVec.ofNat 32 (kFrameSamples * i)
    ssrc := sender.header.ssrc }
  payload :=
    (framePayload order codec (stateBefore order codec sender.adpcmState samples i)
      (frameAt samples i)).1

theorem frameAt_length_le (samples : List I16) (i : Nat) :
    (frameAt samples i).length ≤ kFrameSamples := by
  unfold frameAt
  rw [List.length_take]
  exact Nat.min_le_left _ _

theorem frameAt_length (samples : List I16) (i : Nat) :
    (frameAt samples i).length = min kFrameSamples (samples.length - kFrameSamples * i) := by
  unfold frameAt
  rw [List.length_take, List.length_drop]

theorem frameAt_even {samples : List I16} (h : samples.length % 2 = 0) (i : Nat) :
    (frameAt samples i).length % 2 = 0 := by
  have hframe : kFrameSamples = 160 := rfl
  rw [frameAt_length, hframe]
  omega

theorem frameAt_drop (samples : List I16) (i : Nat) :
    frameAt (samples.drop kFrameSamples) i = frameAt samples (i + 1) := by
  unfold frameAt
  rw [List.drop_drop]
  congr 2
  rw [Nat.mul_succ, Nat.add_comm]

theorem frameCount_drop {samples : List I16} (h : samples ≠ []) :
    frameCount samples = frameCount (samples.drop kFrameSamples) + 1 := by
  have hframe : kFrameSamples = 160 := rfl
  have hpos := List.length_pos_iff.mpr h
  unfold frameCount
  rw [List.length_drop, hframe]
  omega

theorem stateBefore_drop (order : ByteOrder) (codec : CodecName) (state : AdpcmState)
    (samples : List I16) (i : Nat) :
    stateBefore order codec (framePayload order codec state (frameAt samples 0)).2
        (samples.drop kFrameSamples) i =
      stateBefore order codec state samples (i + 1) := by
  unfold stateBefore
  rw [List.range_succ_eq_map, List.foldl_cons, List.foldl_map]
  simp only [frameAt_drop]

/-! ## One datagram -/

theorem framePayload_length_le (order : ByteOrder) (codec : CodecName) (state : AdpcmState)
    {frame : List I16} (h : frame.length ≤ kFrameSamples) :
    (framePayload order codec state frame).1.length ≤ kFrameBytesPcm := by
  have hframe : kFrameSamples = 160 := rfl
  have hbytes : kFrameBytesPcm = 320 := rfl
  cases codec with
  | pcm =>
    show (frame.flatMap (storeU16 order)).length ≤ _
    rw [storeU16_flatMap_length]
    omega
  | ulaw =>
    show (ulawEncodeFrame frame).length ≤ _
    rw [ulawEncodeFrame_length]
    omega
  | adpcm =>
    show ((packAdpcmState state).toList ++ (adpcmEncodeFrame frame state).1).length ≤ _
    rw [List.length_append, Vector.length_toList, adpcmEncodeFrame_length,
      show kAdpcmStateHeaderBytes = 4 from rfl]
    omega

theorem writeU16_length (order : ByteOrder) (v : U16) : (writeU16 order v).length = 2 := by
  cases order <;> rfl

theorem writeU32_length (order : ByteOrder) (v : U32) : (writeU32 order v).length = 4 := by
  cases order <;> rfl

/-- Packing a datagram leaves the buffer as long as it was. -/
theorem serialize_snd_length (order : ByteOrder) (header : RtpHeader)
    {payload outBuffer : List U8} (hfit : kHeaderBytes + payload.length ≤ outBuffer.length) :
    (serialize order header payload outBuffer).2.length = outBuffer.length := by
  have hhdr : kHeaderBytes = 12 := rfl
  simp only [serialize, if_neg (Nat.not_lt.mpr hfit), List.length_append, List.length_cons,
    List.length_nil, writeU16_length, writeU32_length, List.length_drop]
  omega

/-- The sender before and after one round of its loop, when the frame is not too long. -/
theorem sendFrame_spec (order : ByteOrder) (codec : CodecName) {sender : Sender}
    (frame : List I16) (hle : frame.length ≤ kFrameSamples)
    (hbuffer : sender.outBuffer.length = kMaxDatagramBytes)
    (htype : KnownPayloadType sender.header.payloadType) :
    ∃ datagram sender', sender.sendFrame order codec frame = some (datagram, sender') ∧
      parse order datagram = some {
        header := { sender.header with marker := sender.firstPacket }
        payload := (framePayload order codec sender.adpcmState frame).1 } ∧
      sender'.header.payloadType = sender.header.payloadType ∧
      sender'.header.sequenceNumber = sender.header.sequenceNumber + 1 ∧
      sender'.header.timestamp = sender.header.timestamp + BitVec.ofNat 32 frame.length ∧
      sender'.header.ssrc = sender.header.ssrc ∧
      sender'.adpcmState = (framePayload order codec sender.adpcmState frame).2 ∧
      sender'.firstPacket = false ∧ sender'.outBuffer.length = kMaxDatagramBytes := by
  have hpayload := framePayload_length_le order codec sender.adpcmState hle
  have hhdr : kHeaderBytes = 12 := rfl
  have hbytes : kFrameBytesPcm = 320 := rfl
  have hmax : kMaxDatagramBytes = 1500 := rfl
  have hfit : kHeaderBytes + (framePayload order codec sender.adpcmState frame).1.length ≤
      sender.outBuffer.length := by omega
  have hlen := serialize_fst order { sender.header with marker := sender.firstPacket } hfit
  have hparse := parse_serialize order { sender.header with marker := sender.firstPacket } htype hfit
  have hout := serialize_snd_length order { sender.header with marker := sender.firstPacket } hfit
  have hsend : ∃ sender', sender.sendFrame order codec frame =
      some ((serialize order { sender.header with marker := sender.firstPacket }
        (framePayload order codec sender.adpcmState frame).1 sender.outBuffer).2.take
        (kHeaderBytes + (framePayload order codec sender.adpcmState frame).1.length), sender') ∧
      sender' = {
        header := { sender.header with
          marker := sender.firstPacket
          sequenceNumber := sender.header.sequenceNumber + 1
          timestamp := sender.header.timestamp + BitVec.ofNat 32 frame.length }
        adpcmState := (framePayload order codec sender.adpcmState frame).2
        firstPacket := false
        outBuffer := (serialize order { sender.header with marker := sender.firstPacket }
          (framePayload order codec sender.adpcmState frame).1 sender.outBuffer).2 } := by
    unfold Sender.sendFrame
    simp only [hlen]
    rw [if_neg (by omega)]
    exact ⟨_, rfl, rfl⟩
  obtain ⟨sender', hsend, rfl⟩ := hsend
  exact ⟨_, _, hsend, hparse, rfl, rfl, rfl, rfl, rfl, rfl, hout.trans hbuffer⟩

/-! ## The loop -/

theorem sentPacket_zero (order : ByteOrder) (codec : CodecName) (sender : Sender)
    (samples : List I16) : sentPacket order codec sender samples 0 = {
      header := { sender.header with marker := sender.firstPacket }
      payload := (framePayload order codec sender.adpcmState (samples.take kFrameSamples)).1 } := by
  simp [sentPacket, stateBefore, frameAt]

/-- **The sender.** The loop ends without an error, after one datagram for each frame, and each
datagram parses as the packet of its frame. -/
theorem sendLoop_spec (order : ByteOrder) (codec : CodecName) (samples : List I16) :
    ∀ sender : Sender, sender.outBuffer.length = kMaxDatagramBytes →
      KnownPayloadType sender.header.payloadType →
      (sender.sendLoop order codec samples).error = none ∧
      (sender.sendLoop order codec samples).datagrams.length = frameCount samples ∧
      ∀ i, i < frameCount samples →
        ((sender.sendLoop order codec samples).datagrams[i]?).map (parse order) =
          some (some (sentPacket order codec sender samples i)) := by
  induction hn : samples.length using Nat.strong_induction_on generalizing samples with
  | _ n ih =>
    intro sender hbuffer htype
    rw [Sender.sendLoop]
    by_cases hnil : samples = []
    · rw [if_pos hnil]
      subst hnil
      refine ⟨rfl, rfl, ?_⟩
      intro i hi
      exact absurd hi (by simp [frameCount, kFrameSamples_eq])
    · rw [if_neg hnil]
      have hframe : kFrameSamples = 160 := rfl
      have hpos := List.length_pos_iff.mpr hnil
      obtain ⟨datagram, sender', hsend, hparse, htype', hseq, hts, hssrc, hstate, hfirst, hbuffer'⟩ :=
        sendFrame_spec order codec (samples.take kFrameSamples)
          (by rw [List.length_take]; omega) hbuffer htype
      obtain ⟨herror, hcount, hpackets⟩ := ih (samples.drop kFrameSamples).length
        (by rw [List.length_drop]; omega) (samples.drop kFrameSamples) rfl sender' hbuffer'
        (by rw [htype']; exact htype)
      rw [hsend]
      refine ⟨herror, ?_, ?_⟩
      · show (_ :: _ : List (List U8)).length = _
        rw [List.length_cons, hcount, ← frameCount_drop hnil]
      · intro i hi
        cases i with
        | zero =>
          show some (parse order datagram) = _
          rw [hparse, sentPacket_zero]
        | succ i =>
          rw [frameCount_drop hnil] at hi
          have hrest : i < frameCount (samples.drop kFrameSamples) := by omega
          have hlong : (samples.take kFrameSamples).length = kFrameSamples := by
            unfold frameCount at hrest
            rw [List.length_drop, hframe] at hrest
            rw [List.length_take]
            omega
          refine (hpackets i hrest).trans (congrArg (fun p => some (some p)) ?_)
          unfold sentPacket
          rw [htype', hseq, hts, hssrc, hfirst, hstate, hlong, frameAt_drop]
          have hstates := stateBefore_drop order codec sender.adpcmState samples i
          unfold frameAt at hstates
          rw [Nat.mul_zero, List.drop_zero] at hstates
          rw [hstates]
          congr 2
          · simp
          · rw [BitVec.add_assoc]
            congr 1
            rw [Nat.add_comm i 1, BitVec.ofNat_add]
            rfl
          · rw [BitVec.add_assoc]
            congr 1
            rw [Nat.mul_succ, Nat.add_comm _ kFrameSamples, BitVec.ofNat_add]

theorem payloadType_known (codec : CodecName) : KnownPayloadType codec.payloadType := by
  cases codec with
  | pcm => exact Or.inr (Or.inr rfl)
  | ulaw => exact Or.inl rfl
  | adpcm => exact Or.inr (Or.inl rfl)

section Start

variable (order : ByteOrder) (codec : CodecName) (sequenceNumber : U16) (timestamp ssrc : U32)
  (outBuffer : Vector U8 kMaxDatagramBytes)

/-- The datagrams of a sender that starts its loop, one for each frame. -/
theorem sendLoop_start (samples : List I16) :
    ((Sender.start codec sequenceNumber timestamp ssrc outBuffer).sendLoop order codec
      samples).error = none ∧
    ((Sender.start codec sequenceNumber timestamp ssrc outBuffer).sendLoop order codec
      samples).datagrams.length = frameCount samples := by
  obtain ⟨herror, hlength, _⟩ := sendLoop_spec order codec samples
    (Sender.start codec sequenceNumber timestamp ssrc outBuffer) outBuffer.length_toList
    (payloadType_known codec)
  exact ⟨herror, hlength⟩

/-- Datagram `i` parses as the packet of frame `i`. -/
theorem parse_datagram (samples : List I16)
    (i : Fin ((Sender.start codec sequenceNumber timestamp ssrc outBuffer).sendLoop order codec
      samples).datagrams.length) :
    parse order ((Sender.start codec sequenceNumber timestamp ssrc outBuffer).sendLoop order codec
      samples).datagrams[i] =
      some (sentPacket order codec (Sender.start codec sequenceNumber timestamp ssrc outBuffer)
        samples i) := by
  obtain ⟨_, hlength, hpackets⟩ := sendLoop_spec order codec samples
    (Sender.start codec sequenceNumber timestamp ssrc outBuffer) outBuffer.length_toList
    (payloadType_known codec)
  have h := hpackets i (hlength ▸ i.isLt)
  rw [List.getElem?_eq_getElem i.isLt] at h
  exact Option.some.inj h

/-- The payload of packet `i` decodes to what the codec reconstructs of frame `i`. -/
theorem decode_sentPacket {samples : List I16} (heven : codec = .adpcm → samples.length % 2 = 0)
    (i : Nat) :
    decodePayload order codec.payloadType
        (sentPacket order codec (Sender.start codec sequenceNumber timestamp ssrc outBuffer)
          samples i).payload =
      padFrame (reconstruct codec (stateBefore order codec {} samples i) (frameAt samples i)) :=
  decodePayload_framePayload order codec _ (frameAt_length_le samples i)
    fun h => frameAt_even (heven h) i

end Start

end RtpStreamer
