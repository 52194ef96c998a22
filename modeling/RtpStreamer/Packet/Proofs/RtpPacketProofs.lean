import RtpStreamer.Packet.RtpPacket
import Mathlib.Tactic.IntervalCases

/-!
# Parsing inverts packing

A scalar survives the trip through memory on every host, and `htons` undoes itself; with the two
packed bytes in front, `parse` returns what `serialize` was given.
-/

namespace RtpStreamer

/-! ## Scalars in memory -/

theorem joinU16_bytes (v : U16) : joinU16 ((v >>> 8).setWidth 8) (v.setWidth 8) = v := by
  apply BitVec.eq_of_getElem_eq
  intro i hi
  simp only [joinU16, BitVec.getElem_or, BitVec.getElem_shiftLeft, BitVec.getElem_setWidth,
    BitVec.getLsbD_setWidth, BitVec.getLsbD_ushiftRight]
  interval_cases i <;> simp

theorem joinU32_bytes (v : U32) :
    joinU32 ((v >>> 24).setWidth 8) ((v >>> 16).setWidth 8) ((v >>> 8).setWidth 8) (v.setWidth 8)
      = v := by
  apply BitVec.eq_of_getElem_eq
  intro i hi
  simp only [joinU32, BitVec.getElem_or, BitVec.getElem_shiftLeft, BitVec.getElem_setWidth,
    BitVec.getLsbD_setWidth, BitVec.getLsbD_ushiftRight]
  interval_cases i <;> simp

theorem joinU16_byte0 (b1 b0 : U8) : (joinU16 b1 b0).setWidth 8 = b0 := by
  apply BitVec.eq_of_getElem_eq
  intro i hi
  interval_cases i <;> simp [joinU16]

theorem joinU16_byte1 (b1 b0 : U8) : (joinU16 b1 b0 >>> 8).setWidth 8 = b1 := by
  apply BitVec.eq_of_getElem_eq
  intro i hi
  interval_cases i <;> simp [joinU16]

theorem joinU32_byte0 (b3 b2 b1 b0 : U8) : (joinU32 b3 b2 b1 b0).setWidth 8 = b0 := by
  apply BitVec.eq_of_getElem_eq
  intro i hi
  interval_cases i <;> simp [joinU32]

theorem joinU32_byte1 (b3 b2 b1 b0 : U8) : (joinU32 b3 b2 b1 b0 >>> 8).setWidth 8 = b1 := by
  apply BitVec.eq_of_getElem_eq
  intro i hi
  interval_cases i <;> simp [joinU32]

theorem joinU32_byte2 (b3 b2 b1 b0 : U8) : (joinU32 b3 b2 b1 b0 >>> 16).setWidth 8 = b2 := by
  apply BitVec.eq_of_getElem_eq
  intro i hi
  interval_cases i <;> simp [joinU32]

theorem joinU32_byte3 (b3 b2 b1 b0 : U8) : (joinU32 b3 b2 b1 b0 >>> 24).setWidth 8 = b3 := by
  apply BitVec.eq_of_getElem_eq
  intro i hi
  interval_cases i <;> simp [joinU32]

theorem joinU16_toNat (b1 b0 : U8) : (joinU16 b1 b0).toNat = 256 * b1.toNat + b0.toNat := by
  have h1 := b1.isLt
  have h0 := b0.isLt
  have hor := Nat.shiftLeft_add_eq_or_of_lt (i := 8) h0 b1.toNat
  rw [joinU16, BitVec.toNat_or, BitVec.toNat_shiftLeft, BitVec.toNat_setWidth,
    BitVec.toNat_setWidth, Nat.mod_eq_of_lt (a := b1.toNat) (by omega),
    Nat.mod_eq_of_lt (a := b0.toNat) (by omega),
    Nat.mod_eq_of_lt (by rw [Nat.shiftLeft_eq]; omega), ← hor, Nat.shiftLeft_eq, Nat.mul_comm]

/-- A double word is two words. -/
theorem joinU32_eq_words (b3 b2 b1 b0 : U8) :
    joinU32 b3 b2 b1 b0 =
      ((joinU16 b3 b2).setWidth 32 <<< 16) ||| (joinU16 b1 b0).setWidth 32 := by
  apply BitVec.eq_of_getElem_eq
  intro i hi
  simp only [joinU32, joinU16, BitVec.getElem_or, BitVec.getElem_shiftLeft, BitVec.getElem_setWidth,
    BitVec.getLsbD_setWidth, BitVec.getLsbD_or, BitVec.getLsbD_shiftLeft]
  interval_cases i <;> simp

theorem joinU32_toNat (b3 b2 b1 b0 : U8) :
    (joinU32 b3 b2 b1 b0).toNat =
      256 * (256 * (256 * b3.toNat + b2.toNat) + b1.toNat) + b0.toNat := by
  have hhi := joinU16_toNat b3 b2
  have hlo := joinU16_toNat b1 b0
  have hltHi := (joinU16 b3 b2).isLt
  have hltLo := (joinU16 b1 b0).isLt
  have hor := Nat.shiftLeft_add_eq_or_of_lt (i := 16) hltLo (joinU16 b3 b2).toNat
  rw [joinU32_eq_words, BitVec.toNat_or, BitVec.toNat_shiftLeft, BitVec.toNat_setWidth,
    BitVec.toNat_setWidth, Nat.mod_eq_of_lt (a := (joinU16 b3 b2).toNat) (by omega),
    Nat.mod_eq_of_lt (a := (joinU16 b1 b0).toNat) (by omega),
    Nat.mod_eq_of_lt (by rw [Nat.shiftLeft_eq]; omega), ← hor, Nat.shiftLeft_eq]
  omega

/-- What a host stores it loads back. -/
theorem load_store_U16 (order : ByteOrder) (v : U16) :
    ∃ b0 b1, storeU16 order v = [b0, b1] ∧ loadU16 order b0 b1 = v := by
  cases order with
  | little => exact ⟨_, _, rfl, joinU16_bytes v⟩
  | big => exact ⟨_, _, rfl, joinU16_bytes v⟩

theorem load_store_U32 (order : ByteOrder) (v : U32) :
    ∃ b0 b1 b2 b3, storeU32 order v = [b0, b1, b2, b3] ∧ loadU32 order b0 b1 b2 b3 = v := by
  cases order with
  | little => exact ⟨_, _, _, _, rfl, joinU32_bytes v⟩
  | big => exact ⟨_, _, _, _, rfl, joinU32_bytes v⟩

theorem htons_htons (order : ByteOrder) (v : U16) : htons order (htons order v) = v := by
  cases order with
  | little => simp only [htons, joinU16_byte0, joinU16_byte1, joinU16_bytes]
  | big => rfl

theorem htonl_htonl (order : ByteOrder) (v : U32) : htonl order (htonl order v) = v := by
  cases order with
  | little =>
    simp only [htonl, joinU32_byte0, joinU32_byte1, joinU32_byte2, joinU32_byte3, joinU32_bytes]
  | big => rfl

theorem read_write_U16 (order : ByteOrder) (v : U16) :
    ∃ b0 b1, writeU16 order v = [b0, b1] ∧ readU16 order b0 b1 = v := by
  obtain ⟨b0, b1, hs, hl⟩ := load_store_U16 order (htons order v)
  exact ⟨b0, b1, hs, by rw [readU16, hl, htons_htons]⟩

theorem read_write_U32 (order : ByteOrder) (v : U32) :
    ∃ b0 b1 b2 b3, writeU32 order v = [b0, b1, b2, b3] ∧ readU32 order b0 b1 b2 b3 = v := by
  obtain ⟨b0, b1, b2, b3, hs, hl⟩ := load_store_U32 order (htonl order v)
  exact ⟨b0, b1, b2, b3, hs, by rw [readU32, hl, htonl_htonl]⟩

/-! ## The round trip -/

/-- A payload type this pipeline understands. -/
def KnownPayloadType (payloadType : U8) : Prop :=
  payloadType = kPayloadTypePcmu ∨ payloadType = kPayloadTypeAdpcm ∨ payloadType = kPayloadTypePcm

theorem serialize_fst (order : ByteOrder) (header : RtpHeader) {payload outBuffer : List U8}
    (hfit : kHeaderBytes + payload.length ≤ outBuffer.length) :
    (serialize order header payload outBuffer).1 = kHeaderBytes + payload.length := by
  simp only [serialize, if_neg (Nat.not_lt.mpr hfit)]

/-- Parsing the bytes that were written returns the header and the payload. -/
theorem parse_serialize (order : ByteOrder) (header : RtpHeader) {payload outBuffer : List U8}
    (hpt : KnownPayloadType header.payloadType)
    (hfit : kHeaderBytes + payload.length ≤ outBuffer.length) :
    parse order ((serialize order header payload outBuffer).2.take (kHeaderBytes + payload.length))
      = some { header := header, payload := payload } := by
  obtain ⟨s0, s1, hs, hs'⟩ := read_write_U16 order header.sequenceNumber
  obtain ⟨t0, t1, t2, t3, ht, ht'⟩ := read_write_U32 order header.timestamp
  obtain ⟨r0, r1, r2, r3, hr, hr'⟩ := read_write_U32 order header.ssrc
  obtain ⟨marker, payloadType, sequenceNumber, timestamp, ssrc⟩ := header
  have hlen : kHeaderBytes + payload.length
      = payload.length + 1 + 1 + 1 + 1 + 1 + 1 + 1 + 1 + 1 + 1 + 1 + 1 := by
    simp only [kHeaderBytes]; omega
  simp only at hs hs' ht ht' hr hr' hpt
  simp only [serialize, if_neg (Nat.not_lt.mpr hfit), hs, ht, hr, List.cons_append, List.nil_append]
  rw [hlen]
  simp only [List.take_succ_cons, List.take_append_of_le_length le_rfl, List.take_length, parse,
    hs', ht', hr']
  -- the version byte and the four combinations of marker and payload type are constants
  rcases hpt with h | h | h <;> subst h <;> cases marker <;>
    simp [kVersion, kPayloadTypePcmu, kPayloadTypeAdpcm, kPayloadTypePcm]

end RtpStreamer
