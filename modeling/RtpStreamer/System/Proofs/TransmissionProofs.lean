import RtpStreamer.Jitter.Proofs.StreamProofs
import RtpStreamer.Packet.Proofs.BijectionProofs
import RtpStreamer.Receiver.Proofs.ReportProofs
import RtpStreamer.Sender.Process
import RtpStreamer.Wav.Proofs.RoundTripProofs

/-!
# From the sender's file to the receiver's file

The sender and the receiver as two processes with a network between them that may lose, repeat and reorder
datagrams, but delivers nothing else and the first datagram first. Whatever the schedule of the receiver's
threads, every frame is in its place or concealed, and a report of all samples and no loss means that the
file is exactly what the codec makes of the sender's samples.
-/

namespace RtpStreamer

variable {P : Platform} {options : Options}
  {junk : Vector (Vector U8 kSlotPayloadBytes) kCapacity} {capacity : Capacity}
  {config : ReceiverConfig} {initial : Vector Frame capacity.size}

/-- What the sender sends of the samples of its file. -/
def sentBy (order : ByteOrder) (codec : CodecName) (draw : SenderDraw) (samples : List I16) : Sent :=
  (Sender.start codec draw.sequenceNumber draw.timestamp draw.ssrc draw.outBuffer).sendLoop order codec
    samples

theorem stepIndex_zero_le : (0 : U8).toNat ≤ 88 := by decide

/-- Frame `i` as the codec reconstructs it, padded to a whole frame. -/
def frameOf (order : ByteOrder) (codec : CodecName) (samples : List I16) (i : Nat) : Frame :=
  padFrame (reconstruct codec (stateBefore order codec { stepIndex_le := stepIndex_zero_le } samples i)
    (frameAt samples i))

/-- The network delivers datagrams that were sent and nothing else, the first one first. -/
structure Delivers (sent received : List (List U8)) : Prop where
  mem : ∀ datagram ∈ received, datagram ∈ sent
  head : ∀ datagram, received.head? = some datagram → sent.head? = some datagram

theorem Delivers.trans {sent forwarded received : List (List U8)} (h : Delivers sent forwarded)
    (h' : Delivers forwarded received) : Delivers sent received :=
  ⟨fun datagram hmem => h.mem datagram (h'.mem datagram hmem),
    fun datagram hhead => h.head datagram (h'.head datagram hhead)⟩

/-- The packet that datagram `i` carries. -/
def packetOf (order : ByteOrder) (codec : CodecName) (draw : SenderDraw) (samples : List I16) (i : Nat) :
    Packet :=
  pushed (sentPacket order codec
    (Sender.start codec draw.sequenceNumber draw.timestamp draw.ssrc draw.outBuffer) samples i)

section Sent

variable (order : ByteOrder) (codec : CodecName) (draw : SenderDraw) (samples : List I16)

theorem numbered_sent (hcount : frameCount samples ≤ 32768) :
    Numbered draw.sequenceNumber
      (fun i : Fin (frameCount samples) => packetOf order codec draw samples i) :=
  ⟨hcount, fun _ => rfl⟩

theorem sentBy_length : (sentBy order codec draw samples).datagrams.length = frameCount samples :=
  (sendLoop_start order codec draw.sequenceNumber draw.timestamp draw.ssrc draw.outBuffer samples).2

/-- Datagram `i` parses, to packet `i`. -/
theorem parse_sentBy {i : Nat} {datagram : List U8}
    (h : (sentBy order codec draw samples).datagrams[i]? = some datagram) :
    i < frameCount samples ∧
      (parse order datagram).map pushed = some (packetOf order codec draw samples i) := by
  obtain ⟨hi, rfl⟩ := List.getElem?_eq_some_iff.mp h
  have hparse := parse_datagram order codec draw.sequenceNumber draw.timestamp draw.ssrc draw.outBuffer
    samples ⟨i, hi⟩
  refine ⟨by rwa [sentBy_length] at hi, ?_⟩
  exact congrArg (Option.map pushed) hparse

/-- The datagrams sent are those that parse, one after the other, to the packets of the frames. -/
theorem sentBy_eq_of_parse {datagrams : List (List U8)}
    (h : datagrams.map (parse order) = (List.range (frameCount samples)).map fun i =>
      some (sentPacket order codec
        (Sender.start codec draw.sequenceNumber draw.timestamp draw.ssrc draw.outBuffer) samples i)) :
    sentBy order codec draw samples = { datagrams := datagrams } := by
  have hcount := sentBy_length order codec draw samples
  have herror : (sentBy order codec draw samples).error = none :=
    (sendLoop_start order codec draw.sequenceNumber draw.timestamp draw.ssrc draw.outBuffer samples).1
  have hlength : datagrams.length = frameCount samples := by
    simpa using congrArg List.length h
  have hsent : (sentBy order codec draw samples).datagrams = datagrams := by
    refine List.ext_getElem (hcount.trans hlength.symm) fun i hi hi' => ?_
    have hparse := parse_datagram order codec draw.sequenceNumber draw.timestamp draw.ssrc draw.outBuffer
      samples ⟨i, hi⟩
    have hgiven := congrArg (fun parsed => parsed[i]?) h
    simp only [List.getElem?_map, List.getElem?_eq_getElem hi', List.getElem?_range (hlength ▸ hi'),
      Option.map_some, Option.some.injEq] at hgiven
    exact eq_of_parse hparse hgiven
  show Sent.mk (sentBy order codec draw samples).datagrams (sentBy order codec draw samples).error = _
  rw [hsent, herror]

theorem decode_packetOf (heven : codec = .adpcm → samples.length % 2 = 0) (i : Nat) :
    decodePayload order (packetOf order codec draw samples i).payloadType
      (packetOf order codec draw samples i).payload = frameOf order codec samples i :=
  decode_sentPacket order codec draw.sequenceNumber draw.timestamp draw.ssrc draw.outBuffer heven i

end Sent

section Delivers

variable {order : ByteOrder} {codec : CodecName} {draw : SenderDraw} {samples : List I16}

/-- What the network delivers is packets of the sender's stream, packet 0 first. -/
theorem Delivers.pushesOnly {received : List (List U8)} {waiting : List Packet} {calls : List Call}
    (h : Delivers (sentBy order codec draw samples).datagrams received)
    (hpackets : parsedPackets order received = pushedPackets calls ++ waiting) :
    PushesOnly (fun i : Fin (frameCount samples) => packetOf order codec draw samples i) calls := by
  constructor
  · intro packet hmem
    have hparsed : packet ∈ parsedPackets order received := by
      rw [hpackets]
      exact List.mem_append_left waiting hmem
    obtain ⟨datagram, hdatagram, hpacket⟩ := List.mem_filterMap.mp hparsed
    obtain ⟨i, hi⟩ := List.mem_iff_getElem?.mp (h.mem datagram hdatagram)
    obtain ⟨hlt, hparse⟩ := parse_sentBy order codec draw samples hi
    exact ⟨⟨i, hlt⟩, Option.some.inj (hpacket.symm.trans hparse)⟩
  · intro packet hhead
    cases hreceived : received with
    | nil =>
      rw [hreceived] at hpackets
      have hnil := (List.append_eq_nil_iff.mp hpackets.symm).1
      rw [hnil] at hhead
      exact absurd hhead (by simp)
    | cons datagram rest =>
      have hfirst := h.head datagram (by rw [hreceived]; rfl)
      rw [List.head?_eq_getElem?] at hfirst
      obtain ⟨hlt, hparse⟩ := parse_sentBy order codec draw samples hfirst
      have hparsed : (parsedPackets order received).head? = some (packetOf order codec draw samples 0) := by
        rw [hreceived]
        unfold parsedPackets
        rw [List.filterMap_cons, hparse]
        rfl
      rw [hpackets, List.head?_append, hhead] at hparsed
      exact ⟨⟨0, hlt⟩, rfl, Option.some.inj hparsed⟩

end Delivers

/-! ## Every frame in its place -/

/-- Frame `k` was produced from packet `k`, or concealed and counted as lost. -/
def InPlace (P : Platform) (options : Options) (frameOf : Nat → Frame) (lost : Nat)
    (frames : List Frame) : Prop :=
  ∃ real : Nat → Option Frame, (∀ k frame, real k = some frame → frame = frameOf k) ∧
    frames = (playout P options real frames.length).frames ∧
    lost = JitterBuffer.missing real frames.length

variable (options junk) in
theorem inPlace_of_received {codec : CodecName} {draw : SenderDraw} {samples : List I16}
    (hcount : frameCount samples ≤ 32768) (heven : codec = .adpcm → samples.length % 2 = 0)
    {process : ReceiverProcess P capacity} {events : List ProcessEvent}
    (hlegal : (jitterSystem P options junk).Legal (bufferCalls events))
    (hjbuf : process.jbuf = (jitterSystem P options junk).run ((bufferCalls events).map Prod.fst))
    (hreceived : ReceiverProcess.Received process (receivedDatagrams events)
      ((bufferCalls events).map Prod.fst))
    (hnetwork : Delivers (sentBy P.byteOrder codec draw samples).datagrams (receivedDatagrams events)) :
    (ReceiverProcess.producedFrames events).length ≤ frameCount samples ∧
      InPlace P options (frameOf P.byteOrder codec samples) process.jbuf.counts.lost
        (ReceiverProcess.producedFrames events) := by
  have hlength : (ReceiverProcess.producedFrames events).length = process.jbuf.framesPlayed.toNat := by
    rw [hjbuf]
    exact ReceiverProcess.producedFrames_of_legal options junk hlegal
  have hpushes := hnetwork.pushesOnly hreceived.packets
  obtain ⟨real, hreal, hle, hframes, hlost⟩ := stream_playout (P := P) options junk
    (numbered_sent P.byteOrder codec draw samples hcount) _ hpushes
  rw [hlegal, List.filterMap_map] at hframes
  rw [← hjbuf] at hle hframes hlost
  unfold InPlace
  rw [hlength]
  refine ⟨hle, real, ?_, hframes, hlost⟩
  intro k frame hk
  obtain ⟨i, rfl, rfl⟩ := hreal k frame hk
  exact decode_packetOf P.byteOrder codec draw samples heven i.val

variable (options junk config initial) in
theorem inPlace_run {codec : CodecName} {draw : SenderDraw} {samples : List I16}
    (hcount : frameCount samples ≤ 32768) (heven : codec = .adpcm → samples.length % 2 = 0)
    {moves : List ProcessMove}
    (hnetwork : Delivers (sentBy P.byteOrder codec draw samples).datagrams
      (receivedDatagrams ((processSystem P config options junk capacity initial).events moves))) :
    let process : ReceiverProcess P capacity :=
      (processSystem P config options junk capacity initial).run moves
    let frames := ReceiverProcess.producedFrames
      ((processSystem P config options junk capacity initial).events moves)
    frames.length ≤ frameCount samples ∧
      InPlace P options (frameOf P.byteOrder codec samples) process.jbuf.counts.lost frames := by
  intro process frames
  obtain ⟨hlegal, hjbuf⟩ := ReceiverProcess.buffer_linearizable (P := P) options junk config
    initial moves
  exact inPlace_of_received options junk hcount heven hlegal hjbuf
    (ReceiverProcess.handled_run options junk config initial moves) hnetwork

/-- When nothing was lost, nothing was concealed. -/
theorem InPlace.frames_eq {frameOf : Nat → Frame} {frames : List Frame}
    (h : InPlace P options frameOf 0 frames) : frames = (List.range frames.length).map frameOf := by
  obtain ⟨real, hreal, hframes, hlost⟩ := h
  conv_lhs => rw [hframes]
  refine playout_of_all options _ fun i hi => ?_
  have hsome := List.countP_eq_zero.mp hlost.symm i (List.mem_range.mpr hi)
  cases hi' : real i with
  | none => exact absurd (by rw [hi']; rfl) hsome
  | some frame => rw [hreal i frame hi']

variable (options junk config initial) in
/-- **Alignment.** Whatever the network does and however the threads are scheduled, the receiver never
produces more frames than were sent, and frame `k` is what the codec makes of frame `k` of the sender, or
it is concealed and counted as lost. -/
theorem every_frame_in_its_place (codec : CodecName) (draw : SenderDraw) (samples : List I16)
    (hcount : frameCount samples ≤ 32768) (heven : codec = .adpcm → samples.length % 2 = 0)
    (moves : List ProcessMove)
    (hnetwork : Delivers (sentBy P.byteOrder codec draw samples).datagrams
      (receivedDatagrams ((processSystem P config options junk capacity initial).events moves))) :
    let process : ReceiverProcess P capacity :=
      (processSystem P config options junk capacity initial).run moves
    let frames := ReceiverProcess.producedFrames
      ((processSystem P config options junk capacity initial).events moves)
    frames.length ≤ frameCount samples ∧
    ∃ real : Nat → Option Frame,
      (∀ k frame, real k = some frame → frame = frameOf P.byteOrder codec samples k) ∧
      frames = (playout P options real frames.length).frames ∧
      process.jbuf.counts.lost = JitterBuffer.missing real frames.length :=
  inPlace_run options junk config initial hcount heven hnetwork

/-! ## What the report certifies -/

/-- A report of `n` frames and no loss leaves no room for a gap. -/
theorem file_of_full_report {process : ReceiverProcess P capacity} {events : List ProcessEvent}
    {frameOf : Nat → Frame} {n : Nat} (hleft : ReceiverProcess.Left config process events)
    (horder : ReceiverProcess.InOrder process events)
    (hle : (ReceiverProcess.producedFrames events).length ≤ n)
    (hinPlace : InPlace P options frameOf process.jbuf.counts.lost
      (ReceiverProcess.producedFrames events)) {report : Report}
    (hreport : process.report = some report) (hall : report.numSamples = kFrameSamples * n)
    (hlost : report.counts.lost = 0) :
    process.file = some (.ok (Wav.writtenBytes (BitVec.ofNat 32 kSampleRateHz)
      (samplesOf ((List.range n).map frameOf)))) := by
  obtain ⟨_, hsamples, hfile, hprinted, hcounted⟩ := hleft
  cases hopens : config.opens with
  | false =>
    rw [hopens, if_neg (by decide), hreport] at hprinted
    exact absurd hprinted (by simp)
  | true =>
    rw [hopens, if_pos rfl, hreport] at hprinted
    obtain rfl := Option.some.inj hprinted
    change process.jbuf.counts.lost = 0 at hlost
    change process.samples.length = kFrameSamples * n at hall
    rw [hsamples, samplesOf_length, Nat.mul_comm] at hall
    have haccepted : (framesAccepted events).length = n :=
      Nat.eq_of_mul_eq_mul_left (by decide) hall
    -- the frames produced are at least those accepted, and at most those sent
    have hproduced : framesAccepted events = ReceiverProcess.producedFrames events := by
      refine ((List.sublist_append_left _ _).trans horder).eq_of_length ?_
      omega
    rw [hlost] at hinPlace
    have hframes := hinPlace.frames_eq
    rw [← hproduced, haccepted] at hframes
    rw [hfile]
    unfold ReceiverProcess.fileOf Wav.write
    rw [hopens, hsamples, hframes]
    rfl

variable (options junk config initial) in
/-- **The report can be trusted.** When the process exits with a report of all samples and no loss, its file
holds what the codec makes of every frame of the sender, in order. -/
theorem report_certifies_file (codec : CodecName) (draw : SenderDraw) (samples : List I16)
    (hcount : frameCount samples ≤ 32768) (heven : codec = .adpcm → samples.length % 2 = 0)
    (moves : List ProcessMove)
    (hnetwork : Delivers (sentBy P.byteOrder codec draw samples).datagrams
      (receivedDatagrams ((processSystem P config options junk capacity initial).events moves)))
    (hexited : ReceiverProcess.ending
      ((processSystem P config options junk capacity initial).run moves) = .exited) (report : Report)
    (hreport : ReceiverProcess.report
      ((processSystem P config options junk capacity initial).run moves) = some report)
    (hall : report.numSamples = kFrameSamples * frameCount samples) (hlost : report.counts.lost = 0) :
    ReceiverProcess.file ((processSystem P config options junk capacity initial).run moves) =
      some (.ok (Wav.writtenBytes (BitVec.ofNat 32 kSampleRateHz) (samplesOf
        ((List.range (frameCount samples)).map (frameOf P.byteOrder codec samples))))) := by
  obtain ⟨hle, hinPlace⟩ := inPlace_run options junk config initial hcount heven hnetwork
  exact file_of_full_report (ReceiverProcess.left_of_exited options junk config initial moves hexited)
    (ReceiverProcess.inOrder_run options junk config initial moves) hle hinPlace hreport hall hlost

/-! ## The loopback test -/

/-- The frames of raw PCM, put together, are the samples, filled up with zeros. -/
theorem samplesOf_pcm (order : ByteOrder) : ∀ (n : Nat) (samples : List I16), frameCount samples = n →
    samplesOf ((List.range n).map (frameOf order .pcm samples)) =
      samples ++ List.replicate (kFrameSamples * n - samples.length) 0 := by
  intro n
  induction n with
  | zero =>
    intro samples hn
    have hnil : samples = [] := by
      by_contra hne
      rw [frameCount_drop hne] at hn
      exact absurd hn (Nat.succ_ne_zero _)
    subst hnil
    rfl
  | succ n ih =>
    intro samples hn
    have hkFrame : kFrameSamples = 160 := rfl
    have hne : samples ≠ [] := by
      rintro rfl
      exact absurd hn.symm (Nat.succ_ne_zero n)
    have hcount : frameCount (samples.drop kFrameSamples) = n := by
      rw [frameCount_drop hne] at hn
      omega
    have hfirst : (frameOf order .pcm samples 0).toList =
        samples.take kFrameSamples ++ List.replicate (kFrameSamples - samples.length) 0 := by
      show (padFrame (frameAt samples 0)).toList = _
      have hpad : kFrameSamples - min kFrameSamples (samples.length - kFrameSamples * 0) =
          kFrameSamples - samples.length := by omega
      rw [padFrame_toList (frameAt_length_le samples 0), frameAt_length, hpad]
      rfl
    have hlist : (List.range (n + 1)).map (frameOf order .pcm samples) =
        frameOf order .pcm samples 0 ::
          (List.range n).map (frameOf order .pcm (samples.drop kFrameSamples)) := by
      rw [List.range_succ_eq_map, List.map_cons, List.map_map]
      refine congrArg (List.cons _) (List.map_congr_left fun i _ => ?_)
      show padFrame (frameAt samples (i + 1)) = padFrame (frameAt (samples.drop kFrameSamples) i)
      rw [frameAt_drop]
    rw [hlist]
    show (frameOf order .pcm samples 0).toList ++ samplesOf _ = _
    rw [ih _ hcount, hfirst, List.length_drop]
    rcases Nat.lt_or_ge samples.length kFrameSamples with hlt | hge
    · -- the last frame is short, and nothing is left behind it
      have hnil : samples.drop kFrameSamples = [] := List.drop_eq_nil_of_le hlt.le
      rw [hnil] at hcount ⊢
      obtain rfl : n = 0 := hcount.symm
      rw [List.take_of_length_le hlt.le]
      simp
    · have hpad : kFrameSamples - samples.length = 0 := by omega
      have hrest : kFrameSamples * n - (samples.length - kFrameSamples) =
          kFrameSamples * (n + 1) - samples.length := by
        rw [Nat.mul_succ]
        omega
      rw [hpad, hrest, List.replicate_zero, List.append_nil, ← List.append_assoc,
        List.take_append_drop]

/-- A file that `wav::write` has written is read back. -/
theorem read_writtenBytes (path : String) (sampleRate : U32) {samples : List I16}
    (hsize : 36 + 2 * samples.length < 2 ^ 32) :
    Wav.read path (some (Wav.writtenBytes sampleRate samples)) =
      .ok { sampleRate := sampleRate, numChannels := 1, bitsPerSample := 16, samples := samples } := by
  have hforeign : ∀ c ∈ ([] ++ [] : List Wav.Chunk), Wav.Foreign c := fun c hc => absurd hc (by simp)
  have hbytes : (Wav.foreignFile sampleRate samples [] [] hsize hforeign).bytes = _ :=
    Wav.foreignFile_bytes sampleRate hsize hforeign
  have hinsert : Wav.insertChunks (Wav.writtenBytes sampleRate samples) [] [] =
      Wav.writtenBytes sampleRate samples := by
    have hcut (xs : List U8) : xs.take 12 ++ ((xs.drop 12).take 24 ++ xs.drop 36) = xs := by
      rw [show xs.drop 36 = (xs.drop 12).drop 24 by rw [List.drop_drop], List.take_append_drop,
        List.take_append_drop]
    unfold Wav.insertChunks
    simpa [Delimited.encode] using hcut (Wav.writtenBytes sampleRate samples)
  rw [hinsert] at hbytes
  rw [← hbytes, Wav.WavFile.read_bytes _ path (Wav.aligned_foreign hforeign sampleRate),
    Wav.foreignFile_value]

section Loopback

variable (order : ByteOrder) {samples : List I16} (hwhole : samples.length % kFrameSamples = 0)
include hwhole

theorem samples_of_whole : kFrameSamples * frameCount samples = samples.length := by
  unfold frameCount
  rw [kFrameSamples_eq] at hwhole ⊢
  omega

theorem samplesOf_pcm_whole :
    samplesOf ((List.range (frameCount samples)).map (frameOf order .pcm samples)) = samples := by
  rw [samplesOf_pcm order _ samples rfl, samples_of_whole hwhole, Nat.sub_self, List.replicate_zero,
    List.append_nil]

/-- The sender on a file of whole frames as `wav::write` leaves it. -/
theorem runSender_pcm (config : SenderConfig) (draw : SenderDraw) (hcodec : config.codecName = "pcm")
    (hcount : frameCount samples ≤ 32768) :
    runSender order config (some (Wav.writtenBytes (BitVec.ofNat 32 kSampleRateHz) samples)) draw =
      sentBy order .pcm draw samples := by
  have hsize : 36 + 2 * samples.length < 2 ^ 32 := by
    rw [← samples_of_whole hwhole, kFrameSamples_eq]
    omega
  unfold runSender
  rw [hcodec, read_writtenBytes config.inputPath (BitVec.ofNat 32 kSampleRateHz) hsize]
  rfl

end Loopback

variable (options junk config initial) in
/-- **Loopback.** The sender reads a file of whole frames as `wav::write` leaves it and sends raw PCM. When
the receiver exits with a report of all samples and no loss, it has written the same file, byte for byte. -/
theorem loopback_bit_identical (senderConfig : SenderConfig) (draw : SenderDraw) (samples : List I16)
    (hcodec : senderConfig.codecName = "pcm") (hcount : frameCount samples ≤ 32768)
    (hwhole : samples.length % kFrameSamples = 0) (moves : List ProcessMove)
    (hnetwork : Delivers
      (runSender P.byteOrder senderConfig
        (some (Wav.writtenBytes (BitVec.ofNat 32 kSampleRateHz) samples)) draw).datagrams
      (receivedDatagrams ((processSystem P config options junk capacity initial).events moves)))
    (hexited : ReceiverProcess.ending
      ((processSystem P config options junk capacity initial).run moves) = .exited) (report : Report)
    (hreport : ReceiverProcess.report
      ((processSystem P config options junk capacity initial).run moves) = some report)
    (hall : report.numSamples = samples.length) (hlost : report.counts.lost = 0) :
    ReceiverProcess.file ((processSystem P config options junk capacity initial).run moves) =
      some (.ok (Wav.writtenBytes (BitVec.ofNat 32 kSampleRateHz) samples)) := by
  rw [runSender_pcm P.byteOrder hwhole senderConfig draw hcodec hcount] at hnetwork
  obtain ⟨hle, hinPlace⟩ :=
    inPlace_run options junk config initial hcount (fun h => CodecName.noConfusion h) hnetwork
  have hfile := file_of_full_report
    (ReceiverProcess.left_of_exited options junk config initial moves hexited)
    (ReceiverProcess.inOrder_run options junk config initial moves) hle hinPlace hreport
    (hall.trans (samples_of_whole hwhole).symm) hlost
  rwa [samplesOf_pcm_whole P.byteOrder hwhole] at hfile

/-! ## Two sessions of four frames -/

def stepsDraw : SenderDraw where
  sequenceNumber := 65535
  timestamp := 7
  ssrc := 9
  outBuffer := Vector.replicate _ 0

/-- All samples of frame `k` are `k + 1`. -/
def steps : List I16 := (List.range 4).flatMap fun k => List.replicate 160 (BitVec.ofNat 16 (k + 1))

def stepDatagram (k : Nat) : List U8 :=
  [0x80, if k = 0 then 0xE1 else 0x61] ++ writeU16 .little (BitVec.ofNat 16 (65535 + k)) ++
    writeU32 .little (BitVec.ofNat 32 (7 + 160 * k)) ++ [0, 0, 0, 9] ++
    (List.replicate 160 [BitVec.ofNat 8 (k + 1), 0]).flatten

/-- Frame 1 is lost, frame 0 comes twice, and frames 2 and 3 have changed places. -/
def lossyOrder : List Nat := [0, 0, 3, 2]

/-- Frame 1 comes twice, and behind frame 2. -/
def shuffledOrder : List Nat := [0, 2, 1, 1, 3]

/-- The datagrams arrive in the given order, the stream times out, and the threads finish one after the
other. -/
def stepsSession (order : List Nat) : List ProcessMove :=
  order.flatMap (fun k => List.replicate 3 (.receive { datagram := some (stepDatagram k), now := {} })) ++
    List.replicate 3 (.receive { datagram := none, now := { tvSec := 1 } }) ++
    List.replicate 27 .playout ++
    List.replicate 2 (.receive { datagram := none, now := {} }) ++ List.replicate 25 .main

theorem steps_length : steps.length = 640 := by decide +kernel

theorem frameCount_steps : frameCount steps = 4 := by rw [frameCount, steps_length, kFrameSamples_eq]

theorem sentBy_steps :
    sentBy .little .pcm stepsDraw steps = { datagrams := (List.range 4).map stepDatagram } :=
  sentBy_eq_of_parse .little .pcm stepsDraw steps (by decide +kernel)

/-- A network that picks from a list of datagrams, the first one first. -/
theorem delivers_map {sent received : List Nat} (datagramOf : Nat → List U8)
    (hmem : ∀ k ∈ received, k ∈ sent) (hhead : received.head? = sent.head?) :
    Delivers (sent.map datagramOf) (received.map datagramOf) := by
  constructor
  · intro datagram hdatagram
    obtain ⟨k, hk, rfl⟩ := List.mem_map.mp hdatagram
    exact List.mem_map_of_mem (hmem k hk)
  · intro datagram hfirst
    rwa [List.head?_map, ← hhead, ← List.head?_map]

/-- The first session produces four frames, of which frame 1 is a copy of frame 0. -/
theorem session_lossy :
    let system := ReceiverProcess.shortSystem ⟨8, by decide, by decide⟩
    let process := system.run (stepsSession lossyOrder)
    let events := system.events (stepsSession lossyOrder)
    receivedDatagrams events = lossyOrder.map stepDatagram ∧
      (ReceiverProcess.producedFrames events).length = 4 ∧
      (ReceiverProcess.producedFrames events)[1]?.map (fun frame => frame.toList.head?) = some (some 1) ∧
      JitterBuffer.counts (ReceiverProcess.jbuf process) =
        { received := 4, lost := 1, reordered := 1, concealed := 1, duplicate := 1 } ∧
      (JitterBuffer.framesPlayed (ReceiverProcess.jbuf process)).toNat = 4 ∧
      ReceiverProcess.ending process = .exited ∧ ReceiverProcess.underruns process = 0 := by
  decide +kernel

theorem session_shuffled :
    let system := ReceiverProcess.shortSystem ⟨8, by decide, by decide⟩
    let process := system.run (stepsSession shuffledOrder)
    let events := system.events (stepsSession shuffledOrder)
    receivedDatagrams events = shuffledOrder.map stepDatagram ∧
      (framesAccepted events).length = 4 ∧
      (JitterBuffer.counts (ReceiverProcess.jbuf process)).lost = 0 ∧
      ReceiverProcess.ending process = .exited := by
  decide +kernel

theorem delivers_lossy : Delivers (sentBy .little .pcm stepsDraw steps).datagrams
    (receivedDatagrams ((ReceiverProcess.shortSystem ⟨8, by decide, by decide⟩).events
      (stepsSession lossyOrder))) := by
  rw [sentBy_steps, session_lossy.1]
  exact delivers_map stepDatagram (by decide) rfl

theorem delivers_shuffled : Delivers (sentBy .little .pcm stepsDraw steps).datagrams
    (receivedDatagrams ((ReceiverProcess.shortSystem ⟨8, by decide, by decide⟩).events
      (stepsSession shuffledOrder))) := by
  rw [sentBy_steps, session_shuffled.1]
  exact delivers_map stepDatagram (by decide) rfl

/-- The report of a process that has left counts the frames that its ring has taken. -/
theorem report_of_left {process : ReceiverProcess P capacity} {events : List ProcessEvent}
    (h : ReceiverProcess.Left config process events) (hopens : config.opens = true) {n : Nat}
    (haccepted : (framesAccepted events).length = n) : ∃ report, process.report = some report ∧
      report.numSamples = kFrameSamples * n ∧ report.counts = process.jbuf.counts := by
  have hprinted := h.report
  rw [hopens, if_pos rfl] at hprinted
  refine ⟨_, hprinted, ?_, rfl⟩
  have hlength := congrArg List.length h.samples
  rw [samplesOf_length, haccepted, Nat.mul_comm] at hlength
  exact hlength

/-- The second session ends with a report of all samples and no loss. -/
theorem report_shuffled : ∃ report, ReceiverProcess.report
      ((ReceiverProcess.shortSystem ⟨8, by decide, by decide⟩).run (stepsSession shuffledOrder)) =
        some report ∧
    report.numSamples = kFrameSamples * 4 ∧ report.counts.lost = 0 := by
  obtain ⟨_, haccepted, hlost, hexited⟩ := session_shuffled
  have hleft : ReceiverProcess.Left ReceiverProcess.shortConfig
      ((ReceiverProcess.shortSystem ⟨8, by decide, by decide⟩).run (stepsSession shuffledOrder))
      ((ReceiverProcess.shortSystem ⟨8, by decide, by decide⟩).events (stepsSession shuffledOrder)) :=
    ReceiverProcess.left_of_exited (P := exactPlatform .little fun _ sample => sample) {}
      (Vector.replicate _ (Vector.replicate _ 0)) ReceiverProcess.shortConfig
      (ReceiverProcess.silentRing ⟨8, by decide, by decide⟩) (stepsSession shuffledOrder) hexited
  obtain ⟨report, hreport, hall, hcounts⟩ := report_of_left hleft rfl haccepted
  exact ⟨report, hreport, hall, (congrArg Counts.lost hcounts).trans hlost⟩

/-- In the first session frame 1 is concealed and counted as lost, and the others are in their places. -/
theorem every_frame_in_its_place_example :
    let P := exactPlatform .little fun _ sample => sample
    let frames := ReceiverProcess.producedFrames
      ((ReceiverProcess.shortSystem ⟨8, by decide, by decide⟩).events (stepsSession lossyOrder))
    frames.length = 4 ∧ ∃ real : Nat → Option Frame, real 1 = none ∧
      (∀ k ∈ [0, 2, 3], real k = some (frameOf .little .pcm steps k)) ∧
      frames = (playout P {} real 4).frames ∧ JitterBuffer.missing real 4 = 1 := by
  obtain ⟨_, hlength, hcopy, hcounts, _⟩ := session_lossy
  obtain ⟨_, real, hreal, hframes, hmissing⟩ := every_frame_in_its_place
    (P := exactPlatform .little fun _ sample => sample) {} (Vector.replicate _ (Vector.replicate _ 0))
    ReceiverProcess.shortConfig (ReceiverProcess.silentRing ⟨8, by decide, by decide⟩) .pcm stepsDraw steps
    (frameCount_steps.trans_le (by decide)) (fun h => CodecName.noConfusion h) (stepsSession lossyOrder)
    delivers_lossy
  unfold ReceiverProcess.shortSystem at hlength hcopy hcounts
  rw [hlength] at hframes hmissing
  rw [hcounts] at hmissing
  have hnone : real 1 = none := by
    cases h : real 1 with
    | none => rfl
    | some frame =>
      -- frame 1 of the sender is not a copy of its frame 0
      have hsecond : (frameOf .little .pcm steps 1).toList.head? = some 2 := by decide +kernel
      rw [hframes, playout_getElem? {} real (by decide), h, hreal 1 frame h] at hcopy
      exact absurd (hsecond.symm.trans (Option.some.inj hcopy)) (by decide)
  refine ⟨hlength, real, hnone, fun k hk => ?_, hframes, hmissing.symm⟩
  cases hframe : real k with
  | some frame => exact congrArg some (hreal k frame hframe)
  | none =>
    -- two frames would be missing
    rw [JitterBuffer.missing_succ, JitterBuffer.missing_succ, JitterBuffer.missing_succ,
      JitterBuffer.missing_succ, hnone] at hmissing
    obtain rfl | rfl | rfl : k = 0 ∨ k = 2 ∨ k = 3 := by simpa using hk
    all_goals
      rw [hframe] at hmissing
      simp only [Option.isNone_none, Bool.toNat_true] at hmissing
      omega

/-- In the second session the report certifies all four frames. -/
theorem report_certifies_file_example :
    ReceiverProcess.file ((ReceiverProcess.shortSystem ⟨8, by decide, by decide⟩).run
      (stepsSession shuffledOrder)) =
      some (.ok (Wav.writtenBytes (BitVec.ofNat 32 kSampleRateHz)
        (samplesOf ((List.range 4).map (frameOf .little .pcm steps))))) := by
  obtain ⟨_, _, _, hexited⟩ := session_shuffled
  obtain ⟨report, hreport, hall, hlost⟩ := report_shuffled
  have hfile := report_certifies_file (P := exactPlatform .little fun _ sample => sample) {}
    (Vector.replicate _ (Vector.replicate _ 0)) ReceiverProcess.shortConfig
    (ReceiverProcess.silentRing ⟨8, by decide, by decide⟩) .pcm stepsDraw steps
    (frameCount_steps.trans_le (by decide)) (fun h => CodecName.noConfusion h)
    (stepsSession shuffledOrder) delivers_shuffled hexited report hreport
    (by rw [hall, frameCount_steps]) hlost
  rw [frameCount_steps] at hfile
  exact hfile

/-- And the receiver's file is the sender's. -/
theorem loopback_bit_identical_example :
    ReceiverProcess.file ((ReceiverProcess.shortSystem ⟨8, by decide, by decide⟩).run
      (stepsSession shuffledOrder)) =
      some (.ok (Wav.writtenBytes (BitVec.ofNat 32 kSampleRateHz) steps)) := by
  obtain ⟨_, _, _, hexited⟩ := session_shuffled
  obtain ⟨report, hreport, hall, hlost⟩ := report_shuffled
  have hwhole : steps.length % kFrameSamples = 0 := by rw [steps_length, kFrameSamples_eq]
  have hcount : frameCount steps ≤ 32768 := frameCount_steps.trans_le (by decide)
  have hnetwork := delivers_shuffled
  rw [← runSender_pcm .little hwhole { inputPath := "in.wav" } stepsDraw rfl hcount] at hnetwork
  exact loopback_bit_identical (P := exactPlatform .little fun _ sample => sample) {}
    (Vector.replicate _ (Vector.replicate _ 0)) ReceiverProcess.shortConfig
    (ReceiverProcess.silentRing ⟨8, by decide, by decide⟩) { inputPath := "in.wav" } stepsDraw steps rfl
    hcount hwhole (stepsSession shuffledOrder) hnetwork hexited report hreport
    (hall.trans steps_length.symm) hlost

end RtpStreamer
