import RtpStreamer.Packet.Proofs.RtpPacketProofs

/-!
# The packet format is a bijection

Besides undoing `serialize`, `parse` accepts nothing that `serialize` would not write: the first byte
is a constant, the marker and the payload type fill the second, and the three fields are read and
written in network byte order on every host.
-/

namespace RtpStreamer

/-- The number that bytes spell in network byte order. -/
def bigEndian (bytes : List U8) : Nat := bytes.foldl (fun value byte => 256 * value + byte.toNat) 0

/-! ## Reading a field -/

/-- A field is read in network byte order, whatever the host. -/
theorem readU16_eq (order : ByteOrder) (p0 p1 : U8) : readU16 order p0 p1 = joinU16 p0 p1 := by
  cases order with
  | little => simp only [readU16, loadU16, htons, joinU16_byte0, joinU16_byte1]
  | big => rfl

theorem readU32_eq (order : ByteOrder) (p0 p1 p2 p3 : U8) :
    readU32 order p0 p1 p2 p3 = joinU32 p0 p1 p2 p3 := by
  cases order with
  | little =>
    simp only [readU32, loadU32, htonl, joinU32_byte0, joinU32_byte1, joinU32_byte2, joinU32_byte3]
  | big => rfl

theorem readU16_toNat (order : ByteOrder) (p0 p1 : U8) :
    (readU16 order p0 p1).toNat = bigEndian [p0, p1] := by
  rw [readU16_eq, joinU16_toNat]
  simp only [bigEndian, List.foldl_cons, List.foldl_nil]
  omega

theorem readU32_toNat (order : ByteOrder) (p0 p1 p2 p3 : U8) :
    (readU32 order p0 p1 p2 p3).toNat = bigEndian [p0, p1, p2, p3] := by
  rw [readU32_eq, joinU32_toNat]
  simp only [bigEndian, List.foldl_cons, List.foldl_nil]
  omega

/-- What is read is written back. -/
theorem write_read_U16 (order : ByteOrder) (p0 p1 : U8) :
    writeU16 order (readU16 order p0 p1) = [p0, p1] := by
  unfold writeU16 readU16
  rw [htons_htons]
  cases order <;> simp only [storeU16, loadU16, joinU16_byte0, joinU16_byte1]

theorem write_read_U32 (order : ByteOrder) (p0 p1 p2 p3 : U8) :
    writeU32 order (readU32 order p0 p1 p2 p3) = [p0, p1, p2, p3] := by
  unfold writeU32 readU32
  rw [htonl_htonl]
  cases order <;>
    simp only [storeU32, loadU32, joinU32_byte0, joinU32_byte1, joinU32_byte2, joinU32_byte3]

/-! ## The packed bytes -/

/-- The version is 2 and all other bits are zero exactly in one byte. -/
theorem version_byte_iff (d0 : U8) : d0 >>> 6 = kVersion ∧ d0 &&& 0x3F = 0 ↔ d0 = 0x80 := by
  revert d0
  decide +kernel

theorem payloadType_toNat (d1 : U8) : (d1 &&& 0x7F).toNat = d1.toNat % 128 := by
  rw [BitVec.toNat_and]
  exact Nat.and_two_pow_sub_one_eq_mod d1.toNat 7

/-- The marker and the payload type make up the second byte. -/
theorem second_byte (d1 : U8) :
    ((if d1 &&& 0x80 ≠ 0 then 0x80 else 0x00) ||| ((d1 &&& 0x7F) &&& 0x7F) : U8) = d1 := by
  revert d1
  decide +kernel

theorem knownPayloadType_iff (d1 : U8) :
    KnownPayloadType (d1 &&& 0x7F) ↔ d1.toNat % 128 ∈ [0, 96, 97] := by
  rw [← payloadType_toNat]
  simp only [KnownPayloadType, List.mem_cons, List.not_mem_nil, or_false, ← BitVec.toNat_inj]
  exact Iff.rfl

/-! ## What `parse` accepts -/

/-- The bytes that are a packet of this pipeline. -/
def WellFormed (data : List U8) : Prop :=
  kHeaderBytes ≤ data.length ∧ data[0]? = some 0x80 ∧
    ∃ d1, data[1]? = some d1 ∧ d1.toNat % 128 ∈ [0, 96, 97]

/-- The packet in a datagram whose first byte is the version byte. -/
def unpack (order : ByteOrder) (d1 d2 d3 d4 d5 d6 d7 d8 d9 d10 d11 : U8) (payload : List U8) :
    ParsedPacket where
  header := {
    marker := d1 &&& 0x80 ≠ 0
    payloadType := d1 &&& 0x7F
    sequenceNumber := readU16 order d2 d3
    timestamp := readU32 order d4 d5 d6 d7
    ssrc := readU32 order d8 d9 d10 d11 }
  payload := payload

theorem parse_eq_some_iff (order : ByteOrder) (data : List U8) (packet : ParsedPacket) :
    parse order data = some packet ↔
      ∃ d1 d2 d3 d4 d5 d6 d7 d8 d9 d10 d11 payload,
        data = 0x80 :: d1 :: d2 :: d3 :: d4 :: d5 :: d6 :: d7 :: d8 :: d9 :: d10 :: d11 :: payload ∧
        KnownPayloadType (d1 &&& 0x7F) ∧
        packet = unpack order d1 d2 d3 d4 d5 d6 d7 d8 d9 d10 d11 payload := by
  constructor
  · intro h
    unfold parse at h
    split at h
    · rename_i d0 d1 d2 d3 d4 d5 d6 d7 d8 d9 d10 d11 payload
      dsimp only at h
      split_ifs at h with hversion htype
      have hd0 : d0 = 0x80 := (version_byte_iff d0).mp (by
        rwa [not_or, not_not, not_not] at hversion)
      have hknown : KnownPayloadType (d1 &&& 0x7F) := by
        unfold KnownPayloadType
        by_contra hunknown
        rw [not_or, not_or] at hunknown
        exact htype hunknown
      rw [hd0]
      exact ⟨d1, d2, d3, d4, d5, d6, d7, d8, d9, d10, d11, payload, rfl, hknown,
        (Option.some.inj h).symm⟩
    · exact absurd h (by simp)
  · rintro ⟨d1, d2, d3, d4, d5, d6, d7, d8, d9, d10, d11, payload, rfl, hknown, rfl⟩
    obtain ⟨hversion, hzero⟩ := (version_byte_iff 0x80).mpr rfl
    have haccept : ¬ (d1 &&& 0x7F ≠ kPayloadTypePcmu ∧ d1 &&& 0x7F ≠ kPayloadTypeAdpcm ∧
        d1 &&& 0x7F ≠ kPayloadTypePcm) := by
      rintro ⟨h1, h2, h3⟩
      rcases hknown with h | h | h
      · exact h1 h
      · exact h2 h
      · exact h3 h
    unfold parse
    dsimp only
    rw [if_neg (by rw [hversion, hzero]; simp), if_neg haccept]
    rfl

theorem parse_isSome_iff (order : ByteOrder) (data : List U8) :
    (parse order data).isSome = true ↔ WellFormed data := by
  rw [Option.isSome_iff_exists]
  constructor
  · rintro ⟨packet, h⟩
    obtain ⟨d1, d2, d3, d4, d5, d6, d7, d8, d9, d10, d11, payload, rfl, hknown, _⟩ :=
      (parse_eq_some_iff order data packet).mp h
    refine ⟨?_, rfl, d1, rfl, (knownPayloadType_iff d1).mp hknown⟩
    simp only [List.length_cons, kHeaderBytes]
    omega
  · rintro ⟨hlen, h0, d1, h1, htype⟩
    rcases data with _ | ⟨d0, _ | ⟨d1', _ | ⟨d2, _ | ⟨d3, _ | ⟨d4, _ | ⟨d5, _ | ⟨d6, _ | ⟨d7, _ | ⟨d8,
      _ | ⟨d9, _ | ⟨d10, _ | ⟨d11, payload⟩⟩⟩⟩⟩⟩⟩⟩⟩⟩⟩⟩
    case cons.cons.cons.cons.cons.cons.cons.cons.cons.cons.cons.cons =>
      obtain rfl : d0 = 0x80 := Option.some.inj h0
      obtain rfl : d1' = d1 := Option.some.inj h1
      exact ⟨_, (parse_eq_some_iff order _ _).mpr ⟨d1', d2, d3, d4, d5, d6, d7, d8, d9, d10, d11,
        payload, rfl, (knownPayloadType_iff d1').mpr htype, rfl⟩⟩
    all_goals exact absurd hlen (by simp [kHeaderBytes])

/-! ## Packing what was parsed -/

/-- Packing an accepted datagram again gives the same bytes. -/
theorem serialize_parse {order : ByteOrder} {data : List U8} {packet : ParsedPacket}
    (h : parse order data = some packet) {outBuffer : List U8}
    (hfit : data.length ≤ outBuffer.length) :
    serialize order packet.header packet.payload outBuffer =
      (data.length, data ++ outBuffer.drop data.length) := by
  obtain ⟨d1, d2, d3, d4, d5, d6, d7, d8, d9, d10, d11, payload, rfl, _, rfl⟩ :=
    (parse_eq_some_iff order data packet).mp h
  have htotal : (0x80 :: d1 :: d2 :: d3 :: d4 :: d5 :: d6 :: d7 :: d8 :: d9 :: d10 :: d11 ::
      payload).length = kHeaderBytes + payload.length := by
    simp only [List.length_cons, kHeaderBytes]
    omega
  have hversion : kVersion <<< 6 = (0x80 : U8) := by decide
  have hsecond := second_byte d1
  rw [htotal] at hfit ⊢
  unfold serialize unpack
  simp only [if_neg (Nat.not_lt.mpr hfit), decide_eq_true_eq, write_read_U16, write_read_U32, hversion]
  rw [hsecond]
  rfl

/-- Only one datagram parses to a given packet. -/
theorem eq_of_parse {order : ByteOrder} {data data' : List U8} {packet : ParsedPacket}
    (h : parse order data = some packet) (h' : parse order data' = some packet) : data = data' := by
  have hfit : data.length ≤ (data ++ data').length := by simp
  have hfit' : data'.length ≤ (data ++ data').length := by simp
  obtain ⟨hlength, hbytes⟩ := Prod.mk.inj ((serialize_parse h hfit).symm.trans (serialize_parse h' hfit'))
  exact List.append_inj_left hbytes hlength

/-- The fields of an accepted datagram are the numbers that its bytes spell. -/
theorem parse_fields {order : ByteOrder} {data : List U8} {packet : ParsedPacket}
    (h : parse order data = some packet) :
    packet.header.sequenceNumber.toNat = bigEndian ((data.drop 2).take 2) ∧
      packet.header.timestamp.toNat = bigEndian ((data.drop 4).take 4) ∧
      packet.header.ssrc.toNat = bigEndian ((data.drop 8).take 4) := by
  obtain ⟨d1, d2, d3, d4, d5, d6, d7, d8, d9, d10, d11, payload, rfl, _, rfl⟩ :=
    (parse_eq_some_iff order data packet).mp h
  exact ⟨readU16_toNat order d2 d3, readU32_toNat order d4 d5 d6 d7,
    readU32_toNat order d8 d9 d10 d11⟩

/-- **The packet format.** Parsing what was packed returns the header and the payload; exactly the well
formed datagrams are accepted, packing them again gives the same bytes, and their fields are in network
byte order; packing into a buffer that is too small writes nothing. -/
theorem packet_format_bijective (order : ByteOrder) :
    (∀ (header : RtpHeader) (payload outBuffer : List U8), KnownPayloadType header.payloadType →
      kHeaderBytes + payload.length ≤ outBuffer.length →
      let result := serialize order header payload outBuffer
      result.1 = kHeaderBytes + payload.length ∧
        parse order (result.2.take result.1) = some { header := header, payload := payload }) ∧
    (∀ data : List U8, (parse order data).isSome = true ↔ WellFormed data) ∧
    (∀ (data : List U8) (packet : ParsedPacket), parse order data = some packet →
      (∀ outBuffer : List U8, data.length ≤ outBuffer.length →
        serialize order packet.header packet.payload outBuffer =
          (data.length, data ++ outBuffer.drop data.length)) ∧
      packet.header.sequenceNumber.toNat = bigEndian ((data.drop 2).take 2) ∧
      packet.header.timestamp.toNat = bigEndian ((data.drop 4).take 4) ∧
      packet.header.ssrc.toNat = bigEndian ((data.drop 8).take 4)) ∧
    ∀ (header : RtpHeader) (payload outBuffer : List U8),
      outBuffer.length < kHeaderBytes + payload.length →
      serialize order header payload outBuffer = (0, outBuffer) := by
  refine ⟨?_, parse_isSome_iff order, ?_, ?_⟩
  · intro header payload outBuffer hknown hfit
    have hwritten := serialize_fst order header hfit
    have hparse := parse_serialize order header hknown hfit
    rw [← hwritten] at hparse
    exact ⟨hwritten, hparse⟩
  · intro data packet h
    exact ⟨fun outBuffer hfit => serialize_parse h hfit, parse_fields h⟩
  · intro header payload outBuffer hsmall
    exact if_pos hsmall

/-- A datagram with the marker set, type 96, sequence number 258 and one byte of payload. -/
def markedDatagram : List U8 := [0x80, 0xE0, 1, 2, 0, 0, 0, 160, 0, 0, 0, 7, 0xAB]

theorem packet_format_bijective_example :
    (∃ packet, parse .little markedDatagram = some packet ∧
      packet.header.sequenceNumber.toNat = 258 ∧
      serialize .little packet.header packet.payload (List.replicate 13 0) = (13, markedDatagram)) ∧
    parse .big ((serialize .big { ssrc := 7 } [1, 2] (List.replicate 20 0)).2.take 14) =
      some { header := { ssrc := 7 }, payload := [1, 2] } ∧
    serialize .big {} [1, 2] [0, 0, 0] = (0, [0, 0, 0]) := by
  obtain ⟨_, haccept, hback, _⟩ := packet_format_bijective .little
  obtain ⟨hround, _, _, hsmall⟩ := packet_format_bijective .big
  refine ⟨?_, ?_, hsmall {} [1, 2] [0, 0, 0] (by decide)⟩
  · obtain ⟨packet, hpacket⟩ := Option.isSome_iff_exists.mp
      ((haccept markedDatagram).mpr ⟨by decide, rfl, 0xE0, rfl, by decide⟩)
    obtain ⟨hserialize, hsequence, _⟩ := hback markedDatagram packet hpacket
    exact ⟨packet, hpacket, hsequence, hserialize (List.replicate 13 0) (by decide)⟩
  · exact (hround { ssrc := 7 } [1, 2] (List.replicate 20 0) (Or.inr (Or.inr rfl))
      (by decide)).2

end RtpStreamer
