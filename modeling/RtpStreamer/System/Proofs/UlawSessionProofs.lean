import RtpStreamer.Codec.Proofs.UlawProofs
import RtpStreamer.System.Session
import Mathlib.Logic.Relation

/-!
# mu-law from file to file

A certified session leaves what the codec makes of the sender's samples, so with mu-law the error of every
sample of the file is bounded, and a file that has gone through one such session goes through any number of
further ones unchanged.
-/

namespace RtpStreamer

/-- The codec's frames of a session with mu-law are the frames of raw PCM of the decoded samples. -/
theorem frameOf_ulaw (order : ByteOrder) (samples : List I16) (i : Nat) :
    frameOf order .ulaw samples i = frameOf order .pcm (samples.map ulawReconstruct) i := by
  change padFrame ((frameAt samples i).map ulawReconstruct) =
    padFrame (frameAt (samples.map ulawReconstruct) i)
  unfold frameAt
  rw [List.map_take, List.map_drop]

theorem frameCount_map (f : I16 → I16) (samples : List I16) :
    frameCount (samples.map f) = frameCount samples := by
  unfold frameCount
  rw [List.length_map]

/-- What a session with mu-law makes of the samples of a file. -/
def ulawSamples (samples : List I16) : List I16 :=
  samples.map ulawReconstruct ++
    List.replicate (kFrameSamples * frameCount samples - samples.length) 0

theorem samplesOf_ulaw (order : ByteOrder) (samples : List I16) :
    samplesOf ((List.range (frameCount samples)).map (frameOf order .ulaw samples)) =
      ulawSamples samples := by
  have hmap : (List.range (frameCount samples)).map (frameOf order .ulaw samples) =
      (List.range (frameCount samples)).map (frameOf order .pcm (samples.map ulawReconstruct)) :=
    List.map_congr_left fun i _ => frameOf_ulaw order samples i
  rw [hmap, samplesOf_pcm order _ _ (frameCount_map ulawReconstruct samples), List.length_map]
  rfl

theorem length_le_frames (samples : List I16) : samples.length ≤ kFrameSamples * frameCount samples := by
  unfold frameCount
  rw [kFrameSamples_eq]
  omega

theorem ulawSamples_length (samples : List I16) :
    (ulawSamples samples).length = kFrameSamples * frameCount samples := by
  have hle := length_le_frames samples
  unfold ulawSamples
  rw [List.length_append, List.length_map, List.length_replicate]
  omega

/-! ## One session -/

section Session

variable {session : Session} {input output : List U8} {wav : Wav.WavData}
  (hcodec : session.senderConfig.codecName = "ulaw")
  (hread : Wav.read session.senderConfig.inputPath (some input) = .ok wav)
include hcodec hread

theorem sent_ulaw : session.sent input =
    sentBy session.platform.byteOrder .ulaw session.draw wav.samples := by
  unfold Session.sent runSender
  rw [hcodec, hread]
  rfl

/-- A report of all samples and no loss means that the decoded samples were written, filled up with
zeros. -/
theorem file_of_report (hcount : frameCount wav.samples ≤ 32768)
    (hdelivers : Delivers (session.sent input).datagrams (receivedDatagrams session.events))
    (hexited : session.receiver.ending = .exited) {report : Report}
    (hreport : session.receiver.report = some report)
    (hall : report.numSamples = kFrameSamples * (session.sent input).datagrams.length)
    (hlost : report.counts.lost = 0) :
    session.receiver.file =
      some (.ok (wavFile (ulawSamples wav.samples))) := by
  rw [sent_ulaw hcodec hread] at hdelivers hall
  rw [sentBy_length] at hall
  obtain ⟨hle, hinPlace⟩ := inPlace_run session.options session.junk session.receiverConfig
    session.initial hcount (fun h => CodecName.noConfusion h) hdelivers
  have hfile := file_of_full_report
    (ReceiverProcess.left_of_exited session.options session.junk session.receiverConfig session.initial
      session.moves hexited)
    (ReceiverProcess.inOrder_run session.options session.junk session.receiverConfig session.initial
      session.moves) hle hinPlace hreport hall hlost
  rwa [samplesOf_ulaw] at hfile

theorem output_of_certified (hcount : frameCount wav.samples ≤ 32768) (h : session.Certified input output) :
    output = wavFile (ulawSamples wav.samples) := by
  obtain ⟨hdelivers, hexited, ⟨report, hreport, hall, hlost⟩, hfile⟩ := h
  have hwritten := file_of_report hcodec hread hcount hdelivers hexited hreport hall hlost
  exact Except.ok.inj (Option.some.inj (hfile.symm.trans hwritten))

end Session

/-- **Distortion of a session.** A certified session with mu-law leaves a file of whole frames. Every sample
of the sender's file is in its place with an error of at most a thirty-second of its clipped and biased
magnitude, and zeros follow. -/
theorem ulaw_session_distortion (session : Session) (input output : List U8) (wav : Wav.WavData)
    (hcodec : session.senderConfig.codecName = "ulaw")
    (hread : Wav.read session.senderConfig.inputPath (some input) = .ok wav)
    (hcount : frameCount wav.samples ≤ 32768) (h : session.Certified input output) :
    ∃ received : List I16, output = wavFile received ∧
      received.length = kFrameSamples * frameCount wav.samples ∧
      (∀ (i : Nat) (sample : I16), wav.samples[i]? = some sample → ∃ decoded, received[i]? = some decoded ∧
        32 * |decoded.toInt - ulawClipped sample| ≤ |ulawClipped sample| + kUlawBias) ∧
      ∀ i, wav.samples.length ≤ i → i < received.length → received[i]? = some 0 := by
  refine ⟨ulawSamples wav.samples, output_of_certified hcodec hread hcount h, ulawSamples_length _, ?_, ?_⟩
  · intro i sample hsample
    have hlt := (List.getElem?_eq_some_iff.mp hsample).1
    refine ⟨ulawReconstruct sample, ?_, ulawReconstruct_error sample⟩
    unfold ulawSamples
    rw [List.getElem?_append_left (by rwa [List.length_map]), List.getElem?_map, hsample]
    rfl
  · intro i hle hlt
    rw [ulawSamples_length] at hlt
    unfold ulawSamples
    rw [List.getElem?_append_right (by rwa [List.length_map]), List.length_map, List.getElem?_replicate,
      if_pos (by omega)]

/-! ## Any number of sessions -/

theorem frameCount_ulawSamples (samples : List I16) :
    frameCount (ulawSamples samples) = frameCount samples := by
  rw [frameCount, ulawSamples_length, kFrameSamples_eq]
  omega

theorem ulawSamples_idem (samples : List I16) :
    ulawSamples (ulawSamples samples) = ulawSamples samples := by
  have hzero : ulawReconstruct 0 = 0 := by decide
  have hidem : ulawReconstruct ∘ ulawReconstruct = ulawReconstruct := funext ulawReconstruct_idem
  conv_lhs => rw [ulawSamples]
  rw [frameCount_ulawSamples, ulawSamples_length, Nat.sub_self, List.replicate_zero, List.append_nil]
  unfold ulawSamples
  rw [List.map_append, List.map_map, hidem, List.map_replicate, hzero]

/-- A hop from a file that a hop has left changes nothing. -/
theorem UlawHop.fixes {samples : List I16} {output : List U8} (hcount : frameCount samples ≤ 32768)
    (h : UlawHop (wavFile (ulawSamples samples)) output) :
    output = wavFile (ulawSamples samples) := by
  obtain ⟨session, hcodec, hcertified⟩ := h
  have hsize : 36 + 2 * (ulawSamples samples).length < 2 ^ 32 := by
    rw [ulawSamples_length, kFrameSamples_eq]
    omega
  have hread := read_writtenBytes session.senderConfig.inputPath (BitVec.ofNat 32 kSampleRateHz) hsize
  have houtput := output_of_certified hcodec hread (by rwa [frameCount_ulawSamples]) hcertified
  rwa [ulawSamples_idem] at houtput

/-- **No generation loss.** Behind a first certified session with mu-law, any number of further ones, each
sending the file that the one before has left, leave the same file, byte for byte. -/
theorem no_generation_loss (session : Session) (input first last : List U8) (wav : Wav.WavData)
    (hcodec : session.senderConfig.codecName = "ulaw")
    (hread : Wav.read session.senderConfig.inputPath (some input) = .ok wav)
    (hcount : frameCount wav.samples ≤ 32768) (hfirst : session.Certified input first)
    (hrest : Relation.ReflTransGen UlawHop first last) : last = first := by
  have hwritten := output_of_certified hcodec hread hcount hfirst
  induction hrest with
  | refl => rfl
  | tail _ hhop ih =>
    rw [ih, hwritten] at hhop
    exact hhop.fixes hcount |>.trans hwritten.symm

/-! ## A session of one frame -/

def toneDraw : SenderDraw where
  sequenceNumber := 65535
  timestamp := 7
  ssrc := 9
  outBuffer := Vector.replicate _ 0

def tone : List I16 := List.replicate 160 5

theorem sendLoop_of_short (order : ByteOrder) (codec : CodecName) {sender : Sender} {samples : List I16}
    (hne : samples ≠ []) (hle : samples.length ≤ kFrameSamples) {datagram : List U8}
    (h : (sender.sendFrame order codec samples).map Prod.fst = some datagram) :
    sender.sendLoop order codec samples = { datagrams := [datagram] } := by
  obtain ⟨⟨_, sender'⟩, hsend, rfl⟩ := Option.map_eq_some_iff.mp h
  rw [Sender.sendLoop, if_neg hne, List.take_of_length_le hle, hsend, List.drop_eq_nil_of_le hle]
  dsimp only
  rw [Sender.sendLoop, if_pos rfl]

def ulawDatagram : List U8 :=
  [0x80, 0x80, 0xFF, 0xFF, 0, 0, 0, 7, 0, 0, 0, 9] ++ List.replicate 160 0xFE

def ulawSession : Session where
  platform := exactPlatform .little fun _ sample => sample
  options := {}
  junk := Vector.replicate _ (Vector.replicate _ 0)
  capacity := ⟨2, by decide, by decide⟩
  receiverConfig := ReceiverProcess.shortConfig
  initial := ReceiverProcess.silentRing ⟨2, by decide, by decide⟩
  senderConfig := { inputPath := "in.wav", codecName := "ulaw" }
  draw := toneDraw
  moves := ReceiverProcess.shortSession ulawDatagram

/-- The file of `tone` one session later. -/
def decodedTone : List I16 := List.replicate 160 8

/-- A file of either tone is sent as the same datagram, and the session leaves `decodedTone`. -/
theorem certified_ulawSession {samples : List I16} (hlength : samples.length = 160)
    (hdecoded : ulawSamples samples = decodedTone)
    (hframe : (Sender.sendFrame .little .ulaw
      (Sender.start .ulaw toneDraw.sequenceNumber toneDraw.timestamp toneDraw.ssrc toneDraw.outBuffer)
      samples).map Prod.fst = some ulawDatagram) :
    ulawSession.Certified (wavFile samples) (wavFile decodedTone) := by
  have hsize : 36 + 2 * samples.length < 2 ^ 32 := by
    rw [hlength]
    decide
  have hcount : frameCount samples ≤ 32768 := by
    rw [frameCount, hlength]
    decide
  have hne : samples ≠ [] := List.ne_nil_of_length_pos (by omega)
  have hcodec : ulawSession.senderConfig.codecName = "ulaw" := rfl
  have hread := read_writtenBytes ulawSession.senderConfig.inputPath (BitVec.ofNat 32 kSampleRateHz) hsize
  have hsent : ulawSession.sent (wavFile samples) = { datagrams := [ulawDatagram] } :=
    (sent_ulaw hcodec hread).trans
      (sendLoop_of_short .little .ulaw hne (hlength.trans_le (by decide)) hframe)
  have hdelivers : Delivers [ulawDatagram] (receivedDatagrams ulawSession.events) := by
    have hreceived : receivedDatagrams ulawSession.events = [ulawDatagram] := by decide +kernel
    rw [hreceived]
    exact ⟨fun _ h => h, fun _ h => h⟩
  have hexited : ulawSession.receiver.ending = .exited := by decide +kernel
  have hreport : ulawSession.receiver.report.map
      (fun report => (report.numSamples, report.counts.lost)) = some (160, 0) := by decide +kernel
  obtain ⟨report, hsome, hpair⟩ := Option.map_eq_some_iff.mp hreport
  have hdatagrams : (ulawSession.sent (wavFile samples)).datagrams = [ulawDatagram] :=
    congrArg Sent.datagrams hsent
  rw [← hdatagrams] at hdelivers
  have hall : report.numSamples = kFrameSamples *
      (ulawSession.sent (wavFile samples)).datagrams.length := by
    rw [hdatagrams]
    exact congrArg Prod.fst hpair
  have hlost := congrArg Prod.snd hpair
  have hfile := file_of_report hcodec hread hcount hdelivers hexited hsome hall hlost
  dsimp only at hfile
  rw [hdecoded] at hfile
  exact ⟨hdelivers, hexited, ⟨report, hsome, hall, hlost⟩, hfile⟩

theorem certified_tone : ulawSession.Certified (wavFile tone) (wavFile decodedTone) :=
  certified_ulawSession (by decide +kernel) (by decide +kernel) (by decide +kernel)

theorem certified_decodedTone : ulawSession.Certified (wavFile decodedTone) (wavFile decodedTone) :=
  certified_ulawSession (by decide +kernel) (by decide +kernel) (by decide +kernel)

theorem read_tone : Wav.read ulawSession.senderConfig.inputPath (some (wavFile tone)) =
    .ok { sampleRate := BitVec.ofNat 32 kSampleRateHz, numChannels := 1, bitsPerSample := 16,
          samples := tone } :=
  read_writtenBytes _ _ (by decide +kernel)

theorem ulaw_session_distortion_example : ∃ received : List I16,
    received.length = 160 ∧ ∃ decoded, received[0]? = some decoded ∧
      32 * |decoded.toInt - ulawClipped 5| ≤ |ulawClipped 5| + kUlawBias := by
  obtain ⟨received, _, hlength, hvalues, _⟩ := ulaw_session_distortion ulawSession _ _ _ rfl read_tone
    (by decide +kernel) certified_tone
  exact ⟨received, hlength.trans (by decide +kernel), hvalues 0 5 (by decide +kernel)⟩

theorem no_generation_loss_example :
    ∃ last, UlawHop (wavFile decodedTone) last ∧ last = wavFile decodedTone := by
  have hhop : UlawHop (wavFile decodedTone) _ :=
    ⟨ulawSession, rfl, certified_decodedTone⟩
  exact ⟨_, hhop, no_generation_loss ulawSession _ _ _ _ rfl read_tone (by decide +kernel) certified_tone
    (.tail (.single hhop) hhop)⟩

end RtpStreamer
