import RtpStreamer.Impair.Proofs.MiddleboxProofs
import RtpStreamer.System.Proofs.TransmissionProofs

/-!
# Through the middlebox

The sender, the middlebox and the receiver as three processes, with a network on either side of the
middlebox. A middlebox that neither drops nor delays is a network itself, however often it repeats.
-/

namespace RtpStreamer

section Middlebox

variable {G : Generator} {cfg : ImpairConfig}

/-- Every datagram that is kept is sent at least once, and the copies of the first one come first. -/
theorem delivers_copiesOf (kept : List (List U8 × Verdict)) :
    Delivers (kept.map Prod.fst) (copiesOf kept) := by
  constructor
  · intro datagram hmem
    obtain ⟨⟨payload, verdict⟩, hentry, hcopy⟩ := List.mem_flatMap.mp hmem
    rw [List.eq_of_mem_replicate hcopy]
    exact List.mem_map_of_mem hentry
  · intro datagram hhead
    cases kept with
    | nil => exact absurd hhead (by simp [copiesOf])
    | cons entry kept =>
      obtain ⟨payload, verdict⟩ := entry
      have hcopies : ∃ copies, verdict.sendCount = copies + 1 := by
        unfold Verdict.sendCount
        split_ifs
        · exact ⟨1, rfl⟩
        · exact ⟨0, rfl⟩
      obtain ⟨copies, hcount⟩ := hcopies
      have hfirst : (copiesOf ((payload, verdict) :: kept)).head? = some payload := by
        show (List.replicate verdict.sendCount payload ++ copiesOf kept).head? = some payload
        rw [hcount]
        rfl
      exact hfirst.symm.trans hhead

/-- **The middlebox as a network.** Without loss, jitter and reordering it delivers nothing but what it
receives, and the first datagram first. -/
theorem delivers_middlebox (hloss : cfg.loss ≤ 0) (hreorder : cfg.reorder ≤ 0) (hjitter : cfg.jitterMs ≤ 0)
    (moves : List ImpairMove) :
    Delivers ((arrivalsOf ((impairSystem G cfg).events moves)).map Prod.fst)
      (outputsOf ((impairSystem G cfg).events moves)) := by
  have horder := sent_in_order (G := G) hjitter hreorder moves
  rw [← kept_all hloss moves]
  refine (delivers_copiesOf _).trans ⟨fun datagram hmem => ?_, fun datagram hhead => ?_⟩
  · rw [← horder]
    exact List.mem_append_left _ hmem
  · rw [← horder, List.head?_append, hhead]
    rfl

end Middlebox

variable {P : Platform} (options : Options) (junk : Vector (Vector U8 kSlotPayloadBytes) kCapacity)
  {capacity : Capacity} (config : ReceiverConfig) (initial : Vector Frame capacity.size)

/-- **Passthrough of the pipeline.** The sender's datagrams pass a network, a middlebox that may repeat them
but neither drops nor delays them, and a second network. When the receiver exits with a report of all
samples and no loss, its file is the file of the sender, byte for byte. -/
theorem loopback_through_middlebox (G : Generator) (cfg : ImpairConfig) (senderConfig : SenderConfig)
    (draw : SenderDraw) (samples : List I16) (hloss : cfg.loss ≤ 0) (hreorder : cfg.reorder ≤ 0)
    (hjitter : cfg.jitterMs ≤ 0) (hcodec : senderConfig.codecName = "pcm")
    (hcount : frameCount samples ≤ 32768) (hwhole : samples.length % kFrameSamples = 0)
    (impairMoves : List ImpairMove) (moves : List ProcessMove)
    (hbefore : Delivers
      (runSender P.byteOrder senderConfig
        (some (Wav.writtenBytes (BitVec.ofNat 32 kSampleRateHz) samples)) draw).datagrams
      ((arrivalsOf ((impairSystem G cfg).events impairMoves)).map Prod.fst))
    (hbehind : Delivers (outputsOf ((impairSystem G cfg).events impairMoves))
      (receivedDatagrams ((processSystem P config options junk capacity initial).events moves)))
    (hexited : ReceiverProcess.ending
      ((processSystem P config options junk capacity initial).run moves) = .exited) (report : Report)
    (hreport : ReceiverProcess.report
      ((processSystem P config options junk capacity initial).run moves) = some report)
    (hall : report.numSamples = samples.length) (hlost : report.counts.lost = 0) :
    ReceiverProcess.file ((processSystem P config options junk capacity initial).run moves) =
      some (.ok (Wav.writtenBytes (BitVec.ofNat 32 kSampleRateHz) samples)) := by
  rw [runSender_pcm P.byteOrder hwhole senderConfig draw hcodec hcount] at hbefore
  have hnetwork := (hbefore.trans (delivers_middlebox hloss hreorder hjitter impairMoves)).trans hbehind
  obtain ⟨hle, hinPlace⟩ :=
    inPlace_run options junk config initial hcount (fun h => CodecName.noConfusion h) hnetwork
  have hfile := file_of_full_report
    (ReceiverProcess.left_of_exited options junk config initial moves hexited)
    (ReceiverProcess.inOrder_run options junk config initial moves) hle hinPlace hreport
    (hall.trans (samples_of_whole hwhole).symm) hlost
  rwa [samplesOf_pcm_whole P.byteOrder hwhole] at hfile

/-- The middlebox repeats every datagram; the network behind it loses three of the copies and lets one of
frame 2 overtake those of frame 1. -/
theorem loopback_through_middlebox_example :
    ReceiverProcess.file ((ReceiverProcess.shortSystem ⟨8, by decide, by decide⟩).run
      (stepsSession shuffledOrder)) =
      some (.ok (Wav.writtenBytes (BitVec.ofNat 32 kSampleRateHz) steps)) := by
  obtain ⟨hreceived, _, _, hexited⟩ := session_shuffled
  obtain ⟨report, hreport, hall, hlost⟩ := report_shuffled
  have hwhole : steps.length % kFrameSamples = 0 := by rw [steps_length, kFrameSamples_eq]
  have hcount : frameCount steps ≤ 32768 := frameCount_steps.trans_le (by decide)
  let impairMoves : List ImpairMove := (List.range 4).flatMap fun k =>
    .main (some (stepDatagram k)) :: List.replicate 3 (.main none)
  obtain ⟨harrivals, houtputs⟩ :
      (arrivalsOf ((impairSystem lcg { dup := 1 }).events impairMoves)).map Prod.fst =
        (List.range 4).map stepDatagram ∧
      outputsOf ((impairSystem lcg { dup := 1 }).events impairMoves) =
        [0, 0, 1, 1, 2, 2, 3, 3].map stepDatagram := by decide +kernel
  have hbefore : Delivers (runSender .little { inputPath := "in.wav" }
      (some (Wav.writtenBytes (BitVec.ofNat 32 kSampleRateHz) steps)) stepsDraw).datagrams
      ((arrivalsOf ((impairSystem lcg { dup := 1 }).events impairMoves)).map Prod.fst) := by
    rw [runSender_pcm .little hwhole { inputPath := "in.wav" } stepsDraw rfl hcount, sentBy_steps, harrivals]
    exact ⟨fun _ h => h, fun _ h => h⟩
  have hbehind : Delivers (outputsOf ((impairSystem lcg { dup := 1 }).events impairMoves))
      (receivedDatagrams ((ReceiverProcess.shortSystem ⟨8, by decide, by decide⟩).events
        (stepsSession shuffledOrder))) := by
    rw [houtputs, hreceived]
    exact delivers_map stepDatagram (by decide) rfl
  exact loopback_through_middlebox (P := exactPlatform .little fun _ sample => sample) {}
    (Vector.replicate _ (Vector.replicate _ 0)) ReceiverProcess.shortConfig
    (ReceiverProcess.silentRing ⟨8, by decide, by decide⟩) lcg { dup := 1 } { inputPath := "in.wav" }
    stepsDraw steps (by decide) (by decide) (by decide) rfl hcount hwhole impairMoves
    (stepsSession shuffledOrder) hbefore hbehind hexited report hreport
    (hall.trans steps_length.symm) hlost

end RtpStreamer
