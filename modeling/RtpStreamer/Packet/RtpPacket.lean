import RtpStreamer.Platform

/-!
# RTP packets

`rtp_packet.cpp`: the 12-byte fixed header of RFC 3550 §5.1 in front of a payload. The multi-byte
fields are converted by `htons`/`htonl` and copied with `memcpy`, so both the conversion and the copy
depend on the byte order of the host.
-/

namespace RtpStreamer

def kHeaderBytes : Nat := 12

def kVersion : U8 := 2

/-- G.711 mu-law. -/
def kPayloadTypePcmu : U8 := 0

/-- IMA ADPCM. -/
def kPayloadTypeAdpcm : U8 := 96

/-- Raw PCM. -/
def kPayloadTypePcm : U8 := 97

/-! ## Scalars in memory -/

/-- The word with the given bytes, most significant first. -/
def joinU16 (hi lo : U8) : U16 := (hi.setWidth 16 <<< 8) ||| lo.setWidth 16

/-- The double word with the given bytes, most significant first. -/
def joinU32 (b3 b2 b1 b0 : U8) : U32 :=
  (b3.setWidth 32 <<< 24) ||| (b2.setWidth 32 <<< 16) ||| (b1.setWidth 32 <<< 8) |||
    b0.setWidth 32

/-- The bytes of a `uint16_t` or `int16_t` in the memory of a host. -/
def storeU16 : ByteOrder → U16 → List U8
  | .little, v => [v.setWidth 8, (v >>> 8).setWidth 8]
  | .big, v => [(v >>> 8).setWidth 8, v.setWidth 8]

/-- The scalar that two bytes of memory hold. -/
def loadU16 : ByteOrder → U8 → U8 → U16
  | .little, b0, b1 => joinU16 b1 b0
  | .big, b0, b1 => joinU16 b0 b1

/-- The bytes of a `uint32_t` in the memory of a host. -/
def storeU32 : ByteOrder → U32 → List U8
  | .little, v =>
    [v.setWidth 8, (v >>> 8).setWidth 8, (v >>> 16).setWidth 8, (v >>> 24).setWidth 8]
  | .big, v =>
    [(v >>> 24).setWidth 8, (v >>> 16).setWidth 8, (v >>> 8).setWidth 8, v.setWidth 8]

/-- The scalar that four bytes of memory hold. -/
def loadU32 : ByteOrder → U8 → U8 → U8 → U8 → U32
  | .little, b0, b1, b2, b3 => joinU32 b3 b2 b1 b0
  | .big, b0, b1, b2, b3 => joinU32 b0 b1 b2 b3

/-- `htons`, and `ntohs` as well. -/
def htons : ByteOrder → U16 → U16
  | .little, v => joinU16 (v.setWidth 8) ((v >>> 8).setWidth 8)
  | .big, v => v

/-- `htonl`, and `ntohl` as well. -/
def htonl : ByteOrder → U32 → U32
  | .little, v =>
    joinU32 (v.setWidth 8) ((v >>> 8).setWidth 8) ((v >>> 16).setWidth 8) ((v >>> 24).setWidth 8)
  | .big, v => v

def writeU16 (order : ByteOrder) (hostValue : U16) : List U8 :=
  storeU16 order (htons order hostValue)

def writeU32 (order : ByteOrder) (hostValue : U32) : List U8 :=
  storeU32 order (htonl order hostValue)

def readU16 (order : ByteOrder) (p0 p1 : U8) : U16 := htons order (loadU16 order p0 p1)

def readU32 (order : ByteOrder) (p0 p1 p2 p3 : U8) : U32 :=
  htonl order (loadU32 order p0 p1 p2 p3)

/-! ## Packing and parsing -/

structure RtpHeader where
  marker : Bool := false
  payloadType : U8 := kPayloadTypePcm
  sequenceNumber : U16 := 0
  timestamp : U32 := 0
  ssrc : U32 := 0
  deriving DecidableEq

/-- Packs header and payload into `outBuffer`. Returns the bytes written, or 0 when they do not fit,
and the buffer afterwards. -/
def serialize (order : ByteOrder) (header : RtpHeader) (payload outBuffer : List U8) :
    Nat × List U8 :=
  let total := kHeaderBytes + payload.length
  if outBuffer.length < total then (0, outBuffer)
  else
    (total,
      [kVersion <<< 6, (if header.marker then 0x80 else 0x00) ||| (header.payloadType &&& 0x7F)]
        ++ writeU16 order header.sequenceNumber ++ writeU32 order header.timestamp
        ++ writeU32 order header.ssrc ++ payload ++ outBuffer.drop total)

structure ParsedPacket where
  header : RtpHeader
  payload : List U8
  deriving DecidableEq

/-- Parses a datagram. `none` when it is shorter than the fixed header, the version is not 2, one of
the padding, extension or CSRC bits is set, or the payload type is unknown. -/
def parse (order : ByteOrder) : (data : List U8) → Option ParsedPacket
  | d0 :: d1 :: d2 :: d3 :: d4 :: d5 :: d6 :: d7 :: d8 :: d9 :: d10 :: d11 :: payload =>
    let version := d0 >>> 6
    let paddingExtCc := d0 &&& 0x3F
    if version ≠ kVersion ∨ paddingExtCc ≠ 0 then none
    else
      let payloadType := d1 &&& 0x7F
      if payloadType ≠ kPayloadTypePcmu ∧ payloadType ≠ kPayloadTypeAdpcm ∧
          payloadType ≠ kPayloadTypePcm then none
      else
        some {
          header := {
            marker := d1 &&& 0x80 ≠ 0
            payloadType := payloadType
            sequenceNumber := readU16 order d2 d3
            timestamp := readU32 order d4 d5 d6 d7
            ssrc := readU32 order d8 d9 d10 d11 }
          payload := payload }
  | _ => none

end RtpStreamer
