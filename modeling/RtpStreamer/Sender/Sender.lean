import RtpStreamer.Codec.Adpcm
import RtpStreamer.Codec.Ulaw
import RtpStreamer.Packet.RtpPacket

/-!
# The sender

The loop of `sender.cpp`: cut the samples into frames of 160, code each frame, and send it in one RTP
packet. Pacing and the socket are left out; the datagrams are what `send_to` is given.
-/

namespace RtpStreamer

/-- The values of `--codec`. -/
inductive CodecName where
  | pcm
  | ulaw
  | adpcm
  deriving DecidableEq, Repr

def CodecName.payloadType : CodecName → U8
  | .pcm => kPayloadTypePcm
  | .ulaw => kPayloadTypePcmu
  | .adpcm => kPayloadTypeAdpcm

/-- The `payload_len` bytes of `payload_buf` for one frame, and the ADPCM state after it. Raw PCM is
copied out of memory, so its bytes follow the byte order of the host; the ADPCM header carries the
state as it stood before the frame. -/
def framePayload (order : ByteOrder) (codec : CodecName) (adpcmState : AdpcmState)
    (frame : List I16) : List U8 × AdpcmState :=
  match codec with
  | .pcm => (frame.flatMap (storeU16 order), adpcmState)
  | .ulaw => (ulawEncodeFrame frame, adpcmState)
  | .adpcm =>
    let (out, state) := adpcmEncodeFrame frame adpcmState
    ((packAdpcmState adpcmState).toList ++ out, state)

/-- `kMaxDatagramBytes`, the size of `out_buffer`. -/
def kMaxDatagramBytes : Nat := 1500

/-- The variables of the loop. -/
structure Sender where
  header : RtpHeader
  adpcmState : AdpcmState := {}
  firstPacket : Bool := true
  outBuffer : List U8

/-- The sender before its loop. The sequence number, the timestamp and the SSRC are drawn at random,
and `outBuffer` is uninitialised. -/
def Sender.start (codec : CodecName) (sequenceNumber : U16) (timestamp ssrc : U32)
    (outBuffer : Vector U8 kMaxDatagramBytes) : Sender where
  header := {
    payloadType := codec.payloadType
    sequenceNumber := sequenceNumber
    timestamp := timestamp
    ssrc := ssrc }
  outBuffer := outBuffer.toList

/-- One round of the loop: the datagram sent, or `none` when the frame does not fit in one. -/
def Sender.sendFrame (order : ByteOrder) (codec : CodecName) (sender : Sender)
    (frame : List I16) : Option (List U8 × Sender) :=
  let (payload, adpcmState) := framePayload order codec sender.adpcmState frame
  let header := { sender.header with marker := sender.firstPacket }
  let (packetLen, outBuffer) := serialize order header payload sender.outBuffer
  if packetLen = 0 then none
  else
    some (outBuffer.take packetLen, {
      header := { header with
        sequenceNumber := header.sequenceNumber + 1
        timestamp := header.timestamp + BitVec.ofNat 32 frame.length }
      adpcmState := adpcmState
      firstPacket := false
      outBuffer := outBuffer })

/-- What a sender has sent, and the error that stopped it. -/
structure Sent where
  datagrams : List (List U8) := []
  error : Option String := none

/-- The loop over the samples that are left. -/
def Sender.sendLoop (order : ByteOrder) (codec : CodecName) (sender : Sender)
    (samples : List I16) : Sent :=
  if samples = [] then {}
  else
    match sender.sendFrame order codec (samples.take kFrameSamples) with
    | none => { error := some "frame too large for one RTP/UDP datagram" }
    | some (datagram, sender) =>
      let sent := sender.sendLoop order codec (samples.drop kFrameSamples)
      { sent with datagrams := datagram :: sent.datagrams }
  termination_by samples.length
  decreasing_by
    rw [List.length_drop, kFrameSamples_eq]
    have := List.length_pos_iff.mpr ‹¬samples = []›
    omega

/-! ## What the receiver can hope for -/

/-- The signal a codec reconstructs from one frame. -/
def reconstruct (codec : CodecName) (adpcmState : AdpcmState) (frame : List I16) : List I16 :=
  match codec with
  | .pcm => frame
  | .ulaw => frame.map fun sample => ulawToLinear (linearToUlaw sample)
  | .adpcm => predictorTrace adpcmState frame

end RtpStreamer
