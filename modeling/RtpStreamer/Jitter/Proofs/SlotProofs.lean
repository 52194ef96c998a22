import RtpStreamer.Jitter.JitterBuffer

/-!
# A slot decodes as the packet stored in it

A slot keeps at most 512 bytes of a payload, in memory that may still hold bytes of an earlier packet.
Neither shows: every decoder reads at most 320 bytes, and only bytes that the stored packet wrote.
-/

namespace RtpStreamer

/-! ## What the decoders read -/

theorem readSamples_congr (order : ByteOrder) (numSamples : Nat) :
    ∀ {bytes bytes' : List U8}, bytes.take (2 * numSamples) = bytes'.take (2 * numSamples) →
      readSamples order numSamples bytes = readSamples order numSamples bytes' := by
  induction numSamples with
  | zero => intro bytes bytes' _; simp [readSamples]
  | succ n ih =>
    intro bytes bytes' h
    rw [show 2 * (n + 1) = 2 * n + 1 + 1 by omega] at h
    match bytes, bytes' with
    | [], [] => rfl
    | [], b0 :: rest => simp at h
    | b0 :: rest, [] => simp at h
    | [b0], [b1] => rfl
    | [b0], b1 :: b2 :: rest => simp at h
    | b0 :: b1 :: rest, [b2] => simp at h
    | b0 :: b1 :: rest, c0 :: c1 :: rest' =>
      simp only [List.take_succ_cons, List.cons.injEq] at h
      obtain ⟨rfl, rfl, h⟩ := h
      simp only [readSamples, ih h]

theorem adpcmDecodeFrame_congr (packed : List U8) (numSamples : Nat) (state : AdpcmState) :
    ∀ {packed' : List U8},
      packed.take ((numSamples + 1) / 2) = packed'.take ((numSamples + 1) / 2) →
      adpcmDecodeFrame packed numSamples state = adpcmDecodeFrame packed' numSamples state := by
  induction packed, numSamples, state using adpcmDecodeFrame.induct with
  | case1 packed state => intro packed' _; simp only [adpcmDecodeFrame]
  | case2 n state =>
    intro packed' h
    rw [show (n + 1 + 1) / 2 = n / 2 + 1 by omega] at h
    match packed' with
    | [] => rfl
    | byte :: rest => simp at h
  | case3 byte rest state =>
    intro packed' h
    match packed' with
    | [] => simp at h
    | byte' :: rest' =>
      simp only [show (1 + 1) / 2 = 0 + 1 from rfl, List.take_succ_cons, List.cons.injEq] at h
      obtain ⟨rfl, _⟩ := h
      simp only [adpcmDecodeFrame]
  | case4 byte packed n state sample state₁ h₁ sample' state₂ h₂ out state₃ h₃ ih =>
    intro packed' h
    rw [show (n + 2 + 1) / 2 = (n + 1) / 2 + 1 by omega] at h
    match packed' with
    | [] => simp at h
    | byte' :: rest' =>
      simp only [List.take_succ_cons, List.cons.injEq] at h
      obtain ⟨rfl, h⟩ := h
      simp only [adpcmDecodeFrame, h₁, h₂, ih h]

/-- Prefixes of lists that agree on a longer prefix. -/
theorem take_congr {α : Type} {xs ys : List α} {n m : Nat} (h : xs.take n = ys.take n)
    (hm : m ≤ n) : xs.take m = ys.take m := by
  have h' := congrArg (List.take m) h
  rwa [List.take_take, List.take_take, Nat.min_eq_left hm] at h'

/-- A payload that reaches past the state header has its four bytes in front. -/
theorem exists_header (bytes : List U8) (h : kAdpcmStateHeaderBytes ≤ bytes.length) :
    ∃ in0 in1 in2 in3 packed, bytes = in0 :: in1 :: in2 :: in3 :: packed := by
  rw [show kAdpcmStateHeaderBytes = 4 from rfl] at h
  match bytes with
  | in0 :: in1 :: in2 :: in3 :: packed => exact ⟨in0, in1, in2, in3, packed, rfl⟩
  | [] | [_] | [_, _] | [_, _, _] => simp at h

/-- The ADPCM branch reads the header and at most 80 bytes of codes. -/
theorem adpcm_truncated {payload bytes : List U8} (hlen : kAdpcmStateHeaderBytes ≤ payload.length)
    (h : bytes.take (min payload.length kSlotPayloadBytes) =
      payload.take (min payload.length kSlotPayloadBytes)) :
    ∃ in0 in1 in2 in3 packed packed', bytes = in0 :: in1 :: in2 :: in3 :: packed' ∧
      payload = in0 :: in1 :: in2 :: in3 :: packed ∧
      ∀ state, adpcmDecodeFrame packed'
          (min ((min payload.length kSlotPayloadBytes - kAdpcmStateHeaderBytes) * 2) kFrameSamples)
          state =
        adpcmDecodeFrame packed
          (min ((payload.length - kAdpcmStateHeaderBytes) * 2) kFrameSamples) state := by
  have hcap : kSlotPayloadBytes = 512 := rfl
  have hframe : kFrameSamples = 160 := rfl
  have hhdr : kAdpcmStateHeaderBytes = 4 := rfl
  have hbytes : kAdpcmStateHeaderBytes ≤ bytes.length := by
    have := congrArg List.length h
    simp only [List.length_take] at this
    omega
  obtain ⟨p0, p1, p2, p3, packed, rfl⟩ := exists_header _ hlen
  obtain ⟨b0, b1, b2, b3, packed', rfl⟩ := exists_header _ hbytes
  have hn : min (packed.length + 1 + 1 + 1 + 1) kSlotPayloadBytes =
      min packed.length 508 + 1 + 1 + 1 + 1 := by omega
  simp only [List.length_cons, hn, List.take_succ_cons, List.cons.injEq] at h
  obtain ⟨rfl, rfl, rfl, rfl, hpacked⟩ := h
  refine ⟨_, _, _, _, packed, packed', rfl, rfl, fun state => ?_⟩
  simp only [List.length_cons, hn]
  rw [show min ((min packed.length 508 + 1 + 1 + 1 + 1 - kAdpcmStateHeaderBytes) * 2) kFrameSamples
    = min ((packed.length + 1 + 1 + 1 + 1 - kAdpcmStateHeaderBytes) * 2) kFrameSamples by omega]
  exact adpcmDecodeFrame_congr packed' _ _ (take_congr hpacked (by omega))

/-- Truncating a payload to the bytes of a slot does not change the frame, whatever follows the
bytes that were kept. -/
theorem decodeBytes_truncated (order : ByteOrder) (payloadType : U8) {payload bytes : List U8}
    (h : bytes.take (min payload.length kSlotPayloadBytes) =
      payload.take (min payload.length kSlotPayloadBytes)) :
    decodeBytes order payloadType (min payload.length kSlotPayloadBytes) bytes =
      decodePayload order payloadType payload := by
  have hcap : kSlotPayloadBytes = 512 := rfl
  have hframe : kFrameSamples = 160 := rfl
  have hhdr : kAdpcmStateHeaderBytes = 4 := rfl
  unfold decodePayload decodeBytes
  by_cases hpcm : payloadType = kPayloadTypePcm
  · rw [if_pos hpcm, if_pos hpcm, show kBytesPerSample = 2 from rfl]
    have hn : min (min payload.length kSlotPayloadBytes / 2) kFrameSamples =
        min (payload.length / 2) kFrameSamples := by omega
    rw [hn]
    exact congrArg padFrame (readSamples_congr order _ (take_congr h (by omega)))
  rw [if_neg hpcm, if_neg hpcm]
  by_cases hpcmu : payloadType = kPayloadTypePcmu
  · rw [if_pos hpcmu, if_pos hpcmu]
    have hn : min (min payload.length kSlotPayloadBytes) kFrameSamples =
        min payload.length kFrameSamples := by omega
    rw [hn]
    exact congrArg padFrame (ulawDecodeFrame_congr (take_congr h (by omega)))
  rw [if_neg hpcmu, if_neg hpcmu]
  by_cases hadpcm : payloadType = kPayloadTypeAdpcm ∧ kAdpcmStateHeaderBytes ≤ payload.length
  · rw [if_pos hadpcm, if_pos ⟨hadpcm.1, by omega⟩]
    obtain ⟨in0, in1, in2, in3, packed, packed', hb, hp, heq⟩ := adpcm_truncated hadpcm.2 h
    subst hb hp
    simp only [heq]
  · rw [if_neg hadpcm, if_neg fun h => hadpcm ⟨h.1, by omega⟩]

namespace JitterBuffer

/-- The slot holds the packet: its fields, and the bytes of its payload that fit. -/
structure Holds (slot : Slot) (packet : Packet) (arrivalSamples : U32) : Prop where
  sequenceNumber : slot.sequenceNumber = packet.sequenceNumber
  payloadType : slot.payloadType = packet.payloadType
  payloadLen : slot.payloadLen = min packet.payload.length kSlotPayloadBytes
  arrivalSamples : slot.arrivalSamples = arrivalSamples
  payload : slot.payload.toList.take slot.payloadLen = packet.payload.take slot.payloadLen

theorem holds_fillSlot (old : Slot) (packet : Packet) (arrival : U32) :
    Holds (fillSlot old packet arrival) packet arrival where
  sequenceNumber := rfl
  payloadType := rfl
  payloadLen := rfl
  arrivalSamples := rfl
  payload := by
    show (memcpyPayload old.payload packet.payload).toList.take
      (min packet.payload.length kSlotPayloadBytes) = _
    apply List.ext_getElem
    · simp [fillSlot]
    · intro i h1 h2
      have hi : i < packet.payload.length := by simp at h2; omega
      simp [memcpyPayload, hi]

/-- A slot decodes as the full payload of the packet it holds. -/
theorem Holds.decodeSlot {slot : Slot} {packet : Packet} {arrival : U32}
    (h : Holds slot packet arrival) (order : ByteOrder) :
    decodeSlot order slot = decodePayload order packet.payloadType packet.payload := by
  have hp := h.payload
  unfold RtpStreamer.decodeSlot
  rw [h.payloadLen] at hp ⊢
  rw [h.payloadType]
  exact decodeBytes_truncated order packet.payloadType hp

end JitterBuffer

end RtpStreamer
