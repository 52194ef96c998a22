import RtpStreamer.Receiver.Proofs.WeakExitProofs
import RtpStreamer.System.Proofs.TransmissionProofs

/-!
# From file to file in release/acquire memory

The sender, the network and the receiver, whose three threads may read old values. What the report of the
receiver certifies does not depend on how new the values are that the threads have read on the way.
-/

namespace RtpStreamer

open WeakProcess (newest books_run accounts_run left_of_exited staleSystem main_of_progress)

variable {P : Platform} (options : Options) (junk : Vector (Vector U8 kSlotPayloadBytes) kCapacity)
  {capacity : Capacity} (config : ReceiverConfig) (initial : Vector Frame capacity.size)

/-- **The report can be trusted in release/acquire memory.** Whatever old values the loads have returned, a
report of all samples and no loss means that the file holds what the codec makes of every frame of the sender,
in order. -/
theorem stale_report_certifies_file (codec : CodecName) (draw : SenderDraw) (samples : List I16)
    (hcount : frameCount samples ≤ 32768) (heven : codec = .adpcm → samples.length % 2 = 0)
    (moves : List (ProcessMove × ℕ))
    (hnetwork : Delivers (sentBy P.byteOrder codec draw samples).datagrams
      (receivedDatagrams ((weakProcessSystem P config options junk capacity initial).events moves)))
    (hexited : WeakProcess.main ((weakProcessSystem P config options junk capacity initial).run moves) =
      .exited) (report : Report)
    (hreport : WeakProcess.report ((weakProcessSystem P config options junk capacity initial).run moves) =
      some report)
    (hall : report.numSamples = kFrameSamples * frameCount samples) (hlost : report.counts.lost = 0) :
    WeakProcess.file ((weakProcessSystem P config options junk capacity initial).run moves) =
      some (.ok (Wav.writtenBytes (BitVec.ofNat 32 kSampleRateHz) (samplesOf
        ((List.range (frameCount samples)).map (frameOf P.byteOrder codec samples))))) := by
  obtain ⟨_, ⟨hlegal, hjbuf⟩, hreceived⟩ := books_run (P := P) options junk config initial moves
  obtain ⟨hle, hinPlace⟩ := inPlace_of_received options junk hcount heven hlegal hjbuf hreceived hnetwork
  have hinOrder := (accounts_run (P := P) options junk config initial moves).1.inOrder
  exact file_of_full_report (left_of_exited options junk config initial moves hexited) hinOrder hle hinPlace
    hreport hall hlost

/-! ## A session of four frames -/

/-- The datagrams of four frames arrive in the order of `shuffledOrder`. The main thread first looks at old
values, of an empty ring and of a playout thread that still runs. -/
def staleStepsSession : List (ProcessMove × ℕ) :=
  let threads : List ProcessMove :=
    shuffledOrder.flatMap (fun k =>
        List.replicate 5 (.receive { datagram := some (stepDatagram k), now := {} })) ++
      List.replicate 5 (.receive { datagram := none, now := { tvSec := 1 } }) ++
      List.replicate 45 .playout ++ List.replicate 2 (.receive { datagram := none, now := {} })
  threads.map (fun move => (move, 40)) ++ List.replicate 6 (.main, 0) ++ List.replicate 40 (.main, 40)

theorem session_staleSteps :
    let system := staleSystem ⟨8, by decide, by decide⟩
    let process := system.run staleStepsSession
    let events := system.events staleStepsSession
    receivedDatagrams events = shuffledOrder.map stepDatagram ∧
      (framesAccepted events).length = 4 ∧
      (JitterBuffer.counts (ReceiverProcess.jbuf (newest process))).lost = 0 ∧
      (WeakProcess.main process).progress = 5 := by
  decide +kernel

theorem delivers_staleSteps : Delivers (sentBy .little .pcm stepsDraw steps).datagrams
    (receivedDatagrams ((staleSystem ⟨8, by decide, by decide⟩).events staleStepsSession)) := by
  rw [sentBy_steps, session_staleSteps.1]
  exact delivers_map stepDatagram (by decide) rfl

theorem exited_staleSteps : WeakProcess.main ((staleSystem ⟨8, by decide, by decide⟩).run staleStepsSession) =
    .exited := main_of_progress session_staleSteps.2.2.2

theorem report_of_newest {process : WeakProcess P capacity} {events : List ProcessEvent}
    (h : ReceiverProcess.Left config (newest process) events) (hopens : config.opens = true) {n : Nat}
    (haccepted : (framesAccepted events).length = n) : ∃ report, process.report = some report ∧
      report.numSamples = kFrameSamples * n ∧ report.counts = (newest process).jbuf.counts :=
  report_of_left h hopens haccepted

theorem report_staleSteps : ∃ report, WeakProcess.report
      ((staleSystem ⟨8, by decide, by decide⟩).run staleStepsSession) = some report ∧
    report.numSamples = kFrameSamples * 4 ∧ report.counts.lost = 0 := by
  obtain ⟨_, haccepted, hlost, _⟩ := session_staleSteps
  have hleft : ReceiverProcess.Left ReceiverProcess.shortConfig
      (newest ((staleSystem ⟨8, by decide, by decide⟩).run staleStepsSession))
      ((staleSystem ⟨8, by decide, by decide⟩).events staleStepsSession) :=
    left_of_exited (P := exactPlatform .little fun _ sample => sample) {}
      (Vector.replicate _ (Vector.replicate _ 0)) ReceiverProcess.shortConfig
      (ReceiverProcess.silentRing ⟨8, by decide, by decide⟩) staleStepsSession exited_staleSteps
  obtain ⟨report, hreport, hall, hcounts⟩ :=
    report_of_newest ReceiverProcess.shortConfig hleft rfl haccepted
  exact ⟨report, hreport, hall, (congrArg Counts.lost hcounts).trans hlost⟩

/-- The report certifies all four frames. -/
theorem stale_report_certifies_file_example :
    WeakProcess.file ((staleSystem ⟨8, by decide, by decide⟩).run staleStepsSession) =
      some (.ok (Wav.writtenBytes (BitVec.ofNat 32 kSampleRateHz)
        (samplesOf ((List.range 4).map (frameOf .little .pcm steps))))) := by
  obtain ⟨report, hreport, hall, hlost⟩ := report_staleSteps
  have hfile := stale_report_certifies_file (P := exactPlatform .little fun _ sample => sample) {}
    (Vector.replicate _ (Vector.replicate _ 0)) ReceiverProcess.shortConfig
    (ReceiverProcess.silentRing ⟨8, by decide, by decide⟩) .pcm stepsDraw steps
    (frameCount_steps.trans_le (by decide)) (fun h => CodecName.noConfusion h) staleStepsSession
    delivers_staleSteps exited_staleSteps report hreport (by rw [hall, frameCount_steps]) hlost
  rw [frameCount_steps] at hfile
  exact hfile

end RtpStreamer
