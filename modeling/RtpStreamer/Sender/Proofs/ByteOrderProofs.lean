import RtpStreamer.Packet.Proofs.BijectionProofs
import RtpStreamer.Sender.Proofs.AlignmentProofs

/-!
# What depends on the byte order of the hosts

The header fields are converted before they are copied, so `writeU16` and its siblings do the same on
every host, and the mu-law and ADPCM codecs work on bytes. Raw PCM is copied out of memory and back into
it, so its samples cross the network in the order of the sender and are read in that of the receiver.
-/

namespace RtpStreamer

/-! ## Packed fields -/

/-- The most significant byte comes first on every host. -/
theorem writeU16_eq (order : ByteOrder) (v : U16) :
    writeU16 order v = [(v >>> 8).setWidth 8, v.setWidth 8] := by
  cases order with
  | little => simp only [writeU16, storeU16, htons, joinU16_byte0, joinU16_byte1]
  | big => rfl

theorem writeU32_eq (order : ByteOrder) (v : U32) :
    writeU32 order v =
      [(v >>> 24).setWidth 8, (v >>> 16).setWidth 8, (v >>> 8).setWidth 8, v.setWidth 8] := by
  cases order with
  | little =>
    simp only [writeU32, storeU32, htonl, joinU32_byte0, joinU32_byte1, joinU32_byte2, joinU32_byte3]
  | big => rfl

/-- Packing a given payload does the same on every host. -/
theorem serialize_eq_of_order (order order' : ByteOrder) (header : RtpHeader)
    (payload outBuffer : List U8) :
    serialize order header payload outBuffer = serialize order' header payload outBuffer := by
  simp only [serialize, writeU16_eq, writeU32_eq]

theorem parse_eq_of_order (order order' : ByteOrder) (data : List U8) :
    parse order data = parse order' data := by
  unfold parse
  simp only [readU16_eq, readU32_eq]

/-! ## Payloads -/

/-- The two bytes of a sample are equal. -/
def Palindromic (sample : I16) : Prop := sample.setWidth 8 = (sample >>> 8).setWidth 8

instance : DecidablePred Palindromic := fun sample =>
  inferInstanceAs (Decidable (sample.setWidth 8 = (sample >>> 8).setWidth 8))

theorem storeU16_eq_iff {order order' : ByteOrder} (hne : order ≠ order') (sample : I16) :
    storeU16 order sample = storeU16 order' sample ↔ Palindromic sample := by
  unfold Palindromic
  cases order with
  | little =>
    cases order' with
    | little => exact absurd rfl hne
    | big => simp only [storeU16, List.cons.injEq, and_true, eq_comm, and_self]
  | big =>
    cases order' with
    | little => simp only [storeU16, List.cons.injEq, and_true, eq_comm, and_self]
    | big => exact absurd rfl hne

/-- Raw samples are the same bytes on both hosts when each of them is. -/
theorem flatMap_storeU16_eq_iff {order order' : ByteOrder} (hne : order ≠ order')
    (frame : List I16) :
    frame.flatMap (storeU16 order) = frame.flatMap (storeU16 order') ↔
      ∀ sample ∈ frame, Palindromic sample := by
  induction frame with
  | nil => exact iff_of_true rfl fun _ h => absurd h List.not_mem_nil
  | cons sample frame ih =>
    have hlen : (storeU16 order sample).length = (storeU16 order' sample).length := by
      cases order <;> cases order' <;> rfl
    rw [List.flatMap_cons, List.flatMap_cons, List.forall_mem_cons, ← ih, ← storeU16_eq_iff hne]
    exact ⟨fun h => List.append_inj h hlen, fun ⟨hsample, hframe⟩ => by rw [hsample, hframe]⟩

/-- The codec state does not depend on the host. -/
theorem framePayload_snd_eq_of_order (order order' : ByteOrder) (codec : CodecName)
    (state : AdpcmState) (frame : List I16) :
    (framePayload order codec state frame).2 = (framePayload order' codec state frame).2 := by
  cases codec <;> rfl

/-- Two hosts build the same payload when they have one byte order, or the codec works on bytes, or the
order of the bytes does not show. -/
theorem framePayload_fst_eq_iff (order order' : ByteOrder) (codec : CodecName) (state : AdpcmState)
    (frame : List I16) :
    (framePayload order codec state frame).1 = (framePayload order' codec state frame).1 ↔
      order = order' ∨ codec ≠ .pcm ∨ ∀ sample ∈ frame, Palindromic sample := by
  by_cases heq : order = order'
  · subst heq
    exact iff_of_true rfl (Or.inl rfl)
  · cases codec with
    | pcm =>
      refine (flatMap_storeU16_eq_iff heq frame).trans ⟨fun h => Or.inr (Or.inr h), ?_⟩
      rintro (h | h | h)
      · exact absurd h heq
      · exact absurd rfl h
      · exact h
    | ulaw => exact iff_of_true rfl (Or.inr (Or.inl (by decide)))
    | adpcm => exact iff_of_true rfl (Or.inr (Or.inl (by decide)))

/-- Only raw PCM is decoded through memory. -/
theorem decodePayload_eq_of_order (order order' : ByteOrder) {payloadType : U8}
    (h : payloadType ≠ kPayloadTypePcm) (payload : List U8) :
    decodePayload order payloadType payload = decodePayload order' payloadType payload := by
  simp only [decodePayload, decodeBytes, if_neg h]

/-- What a host makes of its own payloads does not depend on its byte order: for PCM the order of the
copy out of memory is undone by the copy back. -/
theorem decodePayload_own_eq (order order' : ByteOrder) (codec : CodecName) (state : AdpcmState)
    {frame : List I16} (hle : frame.length ≤ kFrameSamples) :
    decodePayload order codec.payloadType (framePayload order codec state frame).1 =
      decodePayload order' codec.payloadType (framePayload order' codec state frame).1 := by
  cases codec with
  | pcm =>
    rw [decodePayload_framePayload order .pcm state hle nofun,
      decodePayload_framePayload order' .pcm state hle nofun]
  | ulaw => exact decodePayload_eq_of_order order order' (by decide) _
  | adpcm => exact decodePayload_eq_of_order order order' (by decide) _

/-! ## Datagrams -/

/-- Hosts that build the same payload make the same round of the loop. -/
theorem sendFrame_eq_of_payload {order order' : ByteOrder} {codec : CodecName} {sender : Sender}
    {frame : List I16} (h : (framePayload order codec sender.adpcmState frame).1 =
      (framePayload order' codec sender.adpcmState frame).1) :
    sender.sendFrame order codec frame = sender.sendFrame order' codec frame := by
  have hpayload : framePayload order codec sender.adpcmState frame =
      framePayload order' codec sender.adpcmState frame :=
    Prod.ext h (framePayload_snd_eq_of_order order order' codec sender.adpcmState frame)
  simp only [Sender.sendFrame, hpayload, serialize_eq_of_order order order']

/-- A receiver on the platform can output `out` from a packet that it parsed from `datagram`. -/
def Plays (P : Platform) (datagram : List U8) (out : Frame) : Prop :=
  ∃ (options : Options) (junk : Vector (Vector U8 kSlotPayloadBytes) kCapacity) (calls : List Call)
    (m n : Nat) (parsed : ParsedPacket) (arrival : U32),
    parse P.byteOrder datagram = some parsed ∧ calls[n]? = some (.push (pushed parsed) arrival) ∧
      ((trackedSystem P options junk).trace calls)[m]? = some (some out, some n)

/-- A datagram that parses is played as its decoded payload and as nothing else. -/
theorem plays_iff {P : Platform} {datagram : List U8} {parsed : ParsedPacket}
    (hparse : parse P.byteOrder datagram = some parsed) (out : Frame) :
    Plays P datagram out ↔
      out = decodePayload P.byteOrder parsed.header.payloadType parsed.payload := by
  constructor
  · rintro ⟨options, junk, calls, m, n, parsed', arrival, hparse', hcall, hout⟩
    obtain rfl := Option.some.inj (hparse.symm.trans hparse')
    obtain ⟨packet, arrival', _, hcall', _, _, hdecode⟩ := outputs_spec hout
    rw [hcall] at hcall'
    obtain ⟨rfl, _⟩ := Call.push.inj (Option.some.inj hcall')
    exact hdecode
  · rintro rfl
    exact ⟨{}, Vector.replicate _ (Vector.replicate _ 0), _, 2, 0, parsed, 0, hparse, rfl,
      trace_push_end_pull P {} _ (pushed parsed)⟩

/-- The datagram for `frame` is the same on a sending host of order `send` as on one of order `receive`,
and what either host plays of it is one and the same frame. -/
structure HostIndependent (send receive : ByteOrder) (codec : CodecName) (sender : Sender)
    (frame : List I16) : Prop where
  datagram_eq : (sender.sendFrame send codec frame).map Prod.fst =
    (sender.sendFrame receive codec frame).map Prod.fst
  played_eq : ∀ datagram, (sender.sendFrame send codec frame).map Prod.fst = some datagram →
    ∀ P P' : Platform, P.byteOrder = send → P'.byteOrder = receive →
      ∃ out, ∀ out', (Plays P datagram out' ↔ out' = out) ∧ (Plays P' datagram out' ↔ out' = out)

/-- **Host byte order.** A frame travels independently of the byte orders of the hosts exactly when they
are the same, or the codec is not raw PCM, or both bytes of every sample are equal. -/
theorem host_independent_iff (send receive : ByteOrder) (codec : CodecName) (header : RtpHeader)
    (adpcmState : AdpcmState) (firstPacket : Bool) (outBuffer : Vector U8 kMaxDatagramBytes)
    (frame : List I16) (hle : frame.length ≤ kFrameSamples) :
    HostIndependent send receive codec {
        header := { header with payloadType := codec.payloadType }
        adpcmState := adpcmState
        firstPacket := firstPacket
        outBuffer := outBuffer.toList } frame ↔
      send = receive ∨ codec ≠ .pcm ∨ ∀ sample ∈ frame, Palindromic sample := by
  generalize hsender : Sender.mk { header with payloadType := codec.payloadType } adpcmState firstPacket
    outBuffer.toList = sender
  have hbuffer : sender.outBuffer.length = kMaxDatagramBytes := by
    rw [← hsender]
    exact Vector.length_toList
  have htype : sender.header.payloadType = codec.payloadType := by rw [← hsender]
  have hknown : KnownPayloadType sender.header.payloadType := by
    rw [htype]
    cases codec <;> simp [KnownPayloadType, CodecName.payloadType]
  obtain ⟨datagram, sender₁, hsend, hparse, -⟩ := sendFrame_spec send codec frame hle hbuffer hknown
  obtain ⟨datagram', sender₂, hsend', hparse', -⟩ :=
    sendFrame_spec receive codec frame hle hbuffer hknown
  rw [← framePayload_fst_eq_iff send receive codec sender.adpcmState frame]
  constructor
  · intro h
    have heq : datagram = datagram' := by
      have hmap := h.datagram_eq
      rw [hsend, hsend'] at hmap
      exact Option.some.inj hmap
    -- the datagrams carry the payloads
    rw [← heq, parse_eq_of_order receive send, hparse] at hparse'
    exact congrArg ParsedPacket.payload (Option.some.inj hparse')
  · intro hpayload
    refine ⟨by rw [sendFrame_eq_of_payload hpayload], ?_⟩
    intro sent hsent P P' hP hP'
    rw [hsend] at hsent
    obtain rfl : datagram = sent := Option.some.inj hsent
    subst hP hP'
    rw [parse_eq_of_order P.byteOrder P'.byteOrder] at hparse
    refine ⟨decodePayload P'.byteOrder codec.payloadType
      (framePayload P'.byteOrder codec sender.adpcmState frame).1, fun out => ⟨?_, ?_⟩⟩
    · rw [plays_iff (parse_eq_of_order _ _ _ ▸ hparse), htype,
        decodePayload_own_eq P.byteOrder P'.byteOrder codec sender.adpcmState hle]
    · rw [plays_iff hparse, htype, hpayload]

/-- Two samples coded by mu-law travel from a little-endian host to a big-endian one. -/
theorem host_independent_ulaw :
    HostIndependent .little .big .ulaw {
      header := { payloadType := CodecName.ulaw.payloadType }
      outBuffer := (Vector.replicate kMaxDatagramBytes 0).toList } [1, 1000] :=
  (host_independent_iff .little .big .ulaw {} {} true (Vector.replicate kMaxDatagramBytes 0) [1, 1000]
    (by decide)).mpr (Or.inr (Or.inl (by decide)))

/-- The raw sample 1 leaves a little-endian host as 01 00 and a big-endian one as 00 01, and a big-endian
host plays the former as 256. -/
theorem raw_sample_follows_host :
    (framePayload .little .pcm {} [1]).1 = [1, 0] ∧ (framePayload .big .pcm {} [1]).1 = [0, 1] ∧
      decodePayload .big kPayloadTypePcm [1, 0] = padFrame [256] ∧
      ¬ HostIndependent .little .big .pcm {
        header := { payloadType := CodecName.pcm.payloadType }
        outBuffer := (Vector.replicate kMaxDatagramBytes 0).toList } [1] := by
  refine ⟨by decide, by decide, ?_, fun h => ?_⟩
  · show padFrame (readSamples .big (min (2 / kBytesPerSample) kFrameSamples) [1, 0]) = _
    exact congrArg padFrame (by decide)
  · exact absurd h.datagram_eq (by decide +kernel)

end RtpStreamer
