import RtpStreamer.Jitter.Proofs.TimelinessProofs
import RtpStreamer.Receiver.Proofs.SilenceProofs
import RtpStreamer.System.Proofs.TransmissionProofs

/-!
# A session on a network that keeps its time

No report is needed to know what the file holds when every datagram that is not lost arrives in its time, the
playout thread keeps up with its clock and the ring never refuses a frame: it is what the codec makes of the
sender's frames, each in its place, with those of the lost datagrams concealed.
-/

namespace RtpStreamer

variable {P : Platform} (options : Options) (junk : Vector (Vector U8 kSlotPayloadBytes) kCapacity)
  {capacity : Capacity} (config : ReceiverConfig) (initial : Vector Frame capacity.size)

/-- **A timely session.** When the datagrams that are not lost arrive in their time, the playout thread keeps
up with its clock and the ring has refused no frame, the file of a receiver that has exited holds what the
codec makes of every frame that arrives, in its place and up to the last of them; the other frames are
concealed, and counted as lost. -/
theorem timely_session_conceals_only_lost (codec : CodecName) (draw : SenderDraw) (samples : List I16)
    (hcount : frameCount samples ≤ 32768) (heven : codec = .adpcm → samples.length % 2 = 0)
    (moves : List ProcessMove)
    (hnetwork : Delivers (sentBy P.byteOrder codec draw samples).datagrams
      (receivedDatagrams ((processSystem P config options junk capacity initial).events moves)))
    (arrives : Fin (frameCount samples) → Bool) {gap clock tick origin : Nat}
    (hpaced : Paced P options junk ((bufferCalls
      ((processSystem P config options junk capacity initial).events moves)).map Prod.fst) clock tick)
    (htimely : Timely (fun i : Fin (frameCount samples) => packetOf P.byteOrder codec draw samples i)
      arrives gap origin ((bufferCalls
        ((processSystem P config options junk capacity initial).events moves)).map Prod.fst))
    (hexited : ReceiverProcess.ending
      ((processSystem P config options junk capacity initial).run moves) = .exited)
    (hunderruns : ReceiverProcess.underruns
      ((processSystem P config options junk capacity initial).run moves) = 0) :
    let process : ReceiverProcess P capacity :=
      (processSystem P config options junk capacity initial).run moves
    let played := process.jbuf.framesPlayed.toNat
    let real := arriving arrives fun i => frameOf P.byteOrder codec samples i
    process.file = some (Wav.write config.outputPath config.opens (BitVec.ofNat 32 kSampleRateHz)
      (samplesOf (playout P options real played).frames)) ∧
    process.jbuf.counts.lost = JitterBuffer.missing real played ∧
    (∀ i, arrives i = true → i.val < played) ∧
    (0 < played → ∃ i, played = i.val + 1 ∧ arrives i = true) := by
  intro process played real
  let events := (processSystem P config options junk capacity initial).events moves
  let calls := (bufferCalls events).map Prod.fst
  let packets : Fin (frameCount samples) → Packet :=
    fun i => packetOf P.byteOrder codec draw samples i
  have hnum : Numbered draw.sequenceNumber packets :=
    numbered_sent P.byteOrder codec draw samples hcount
  have hpushes : PushesOnly packets calls :=
    hnetwork.pushesOnly (ReceiverProcess.handled_run options junk config initial moves).packets
  have hreal : arriving arrives (streamFrame P.byteOrder packets) = real :=
    congrArg (arriving arrives) (funext fun i => decode_packetOf P.byteOrder codec draw samples heven i)
  obtain ⟨hlegal, hjbuf⟩ :=
    ReceiverProcess.buffer_linearizable (P := P) options junk config initial moves
  obtain ⟨hstopped, hsamples, hfile, _, hcounted⟩ : ReceiverProcess.Left config process events :=
    ReceiverProcess.left_of_exited options junk config initial moves hexited
  have horder : (framesAccepted events ++ process.playout.offered.toList).Sublist
      (ReceiverProcess.producedFrames events) :=
    ReceiverProcess.inOrder_run options junk config initial moves
  change process.jbuf = (jitterSystem P options junk).run calls at hjbuf
  obtain ⟨before, hinit, hfinished⟩ :=
    ReceiverProcess.finished_before (P := P) options junk config initial moves (Or.inr hstopped.playout)
  obtain ⟨hlost, htrace⟩ := timely_playout hpaced hnum hpushes htimely
  have hlast := timely_finished hpaced hnum hpushes htimely hinit hfinished
  rw [← hjbuf, hreal] at hlost htrace
  rw [← hjbuf] at hlast
  -- the ring took every frame that was produced
  have hframes : framesAccepted events = (playout P options real played).frames := by
    have hall : framesAccepted events = ReceiverProcess.producedFrames events := by
      refine ((List.sublist_append_left _ _).trans horder).eq_of_length ?_
      change process.underruns = 0 at hunderruns
      omega
    have hproduced : ReceiverProcess.producedFrames events =
        ((jitterSystem P options junk).trace calls).filterMap id := by
      rw [hlegal, List.filterMap_map]
      rfl
    rw [hall, hproduced, htrace]
  refine ⟨?_, hlost, hlast⟩
  rw [hfile]
  unfold ReceiverProcess.fileOf
  rw [hsamples, hframes]

/-! ## A session that has lost a frame -/

def stepPacket (k : Nat) : Packet := packetOf .little .pcm stepsDraw steps k

/-- The calls of the session with `lossyOrder`, all on the first tick. -/
def lossyStepCalls : List Call :=
  [] ++ [Call.push (stepPacket 0) 0] ++ [Call.push (stepPacket 0) 0] ++ [Call.push (stepPacket 3) 0] ++
    [Call.push (stepPacket 2) 0] ++ [Call.markStreamEnded] ++ [Call.pull 160] ++ [Call.pull 160] ++
    [Call.pull 160] ++ [Call.pull 160]

theorem calls_lossy : (bufferCalls ((ReceiverProcess.shortSystem ⟨8, by decide, by decide⟩).events
    (stepsSession lossyOrder))).map Prod.fst = lossyStepCalls := by decide +kernel

def stepArrives (i : Fin (frameCount steps)) : Bool := i.val != 1

theorem paced_lossySteps : Paced (exactPlatform .little fun _ sample => sample) {}
    (Vector.replicate _ (Vector.replicate _ 0)) lossyStepCalls 160 (160 + kFrameSamples) := by
  have harrived : Paced (exactPlatform .little fun _ sample => sample) {}
      (Vector.replicate _ (Vector.replicate _ 0))
      ([] ++ [Call.push (stepPacket 0) 0] ++ [Call.push (stepPacket 0) 0] ++ [Call.push (stepPacket 3) 0] ++
        [Call.push (stepPacket 2) 0] ++ [Call.markStreamEnded]) 0 160 := by
    refine .markStreamEnded (.push (.push (.push (.push (.start (Nat.zero_le 160) le_rfl)
      (stepPacket 0) ?_ ?_ ?_) (stepPacket 0) ?_ ?_ ?_) (stepPacket 3) ?_ ?_ ?_) (stepPacket 2) ?_ ?_ ?_) <;>
      decide
  -- four pulls at 160, the last of which leaves the buffer finished
  refine .rest (.again (.again (.again harrived ?_ ?_) ?_ ?_) ?_ ?_) ?_ ?_ <;> decide +kernel

theorem timely_lossySteps : Timely
    (fun i : Fin (frameCount steps) => packetOf .little .pcm stepsDraw steps i) stepArrives 1 0
    lossyStepCalls := by
  refine timely_of_forall (by decide) (fun k hk => ?_) (by decide +kernel)
  rw [frameCount_steps] at hk
  obtain rfl | rfl | rfl : k = 0 ∨ k = 1 ∨ k = 2 := by omega
  · exact ⟨⟨0, by decide +kernel⟩, by decide⟩
  · exact ⟨⟨2, by decide +kernel⟩, by decide⟩
  · exact ⟨⟨2, by decide +kernel⟩, by decide⟩

/-- Frame 1 is concealed and counted as lost; the other three are in the file, in their places. -/
theorem timely_session_conceals_only_lost_example :
    ReceiverProcess.file ((ReceiverProcess.shortSystem ⟨8, by decide, by decide⟩).run
      (stepsSession lossyOrder)) = some (Wav.write "out.wav" true (BitVec.ofNat 32 kSampleRateHz)
        (samplesOf (playout (exactPlatform .little fun _ sample => sample) {}
          (arriving stepArrives fun i => frameOf .little .pcm steps i) 4).frames)) ∧
    JitterBuffer.counts (ReceiverProcess.jbuf ((ReceiverProcess.shortSystem ⟨8, by decide, by decide⟩).run
      (stepsSession lossyOrder))) =
        { received := 4, lost := 1, reordered := 1, concealed := 1, duplicate := 1 } ∧
    ∀ i, stepArrives i = true → i.val < 4 := by
  have hpaced := paced_lossySteps
  have htimely := timely_lossySteps
  rw [← calls_lossy] at hpaced htimely
  obtain ⟨_, _, _, hcounts, hplayed, hexited, hunderruns⟩ := session_lossy
  obtain ⟨hfile, _, hplaces, _⟩ := timely_session_conceals_only_lost
    (P := exactPlatform .little fun _ sample => sample) {} (Vector.replicate _ (Vector.replicate _ 0))
    ReceiverProcess.shortConfig (ReceiverProcess.silentRing ⟨8, by decide, by decide⟩) .pcm stepsDraw steps
    (frameCount_steps.trans_le (by decide)) (fun h => CodecName.noConfusion h) (stepsSession lossyOrder)
    delivers_lossy stepArrives hpaced htimely hexited hunderruns
  unfold ReceiverProcess.shortSystem at hplayed
  rw [hplayed] at hfile
  exact ⟨hfile, hcounts, fun i hi => (hplaces i hi).trans_eq hplayed⟩

end RtpStreamer
