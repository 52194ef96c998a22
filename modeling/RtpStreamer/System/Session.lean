import RtpStreamer.System.Proofs.TransmissionProofs

/-!
# Sessions from file to file

One run of the sender on a file and one of the receiver, with a network between them. The session is
certified when the receiver exits with a report of all samples and no loss, and it leads from the sender's
file to the receiver's. Sessions are put one behind the other in `UlawHop`.
-/

namespace RtpStreamer

/-- What a session depends on besides the sender's file: the platform, the arguments, what is
uninitialised or drawn at random, and the schedule of the receiver. -/
structure Session where
  platform : Platform
  options : Options
  junk : Vector (Vector U8 kSlotPayloadBytes) kCapacity
  capacity : Capacity
  receiverConfig : ReceiverConfig
  initial : Vector Frame capacity.size
  senderConfig : SenderConfig
  draw : SenderDraw
  moves : List ProcessMove

namespace Session

/-- The sender on its file. -/
def sent (session : Session) (input : List U8) : Sent :=
  runSender session.platform.byteOrder session.senderConfig (some input) session.draw

/-- The receiver when it has made its moves. -/
def receiver (session : Session) : ReceiverProcess session.platform session.capacity :=
  (processSystem session.platform session.receiverConfig session.options session.junk session.capacity
    session.initial).run session.moves

/-- What the receiver has done. -/
def events (session : Session) : List ProcessEvent :=
  (processSystem session.platform session.receiverConfig session.options session.junk session.capacity
    session.initial).events session.moves

/-- The receiver has reported all samples and no loss, and left `output`. -/
structure Certified (session : Session) (input output : List U8) : Prop where
  delivers : Delivers (session.sent input).datagrams (receivedDatagrams session.events)
  exited : session.receiver.ending = .exited
  report : ∃ report, session.receiver.report = some report ∧
    report.numSamples = kFrameSamples * (session.sent input).datagrams.length ∧ report.counts.lost = 0
  file : session.receiver.file = some (.ok output)

end Session

/-- The file that the receiver writes for its samples. -/
abbrev wavFile (samples : List I16) : List U8 := Wav.writtenBytes (BitVec.ofNat 32 kSampleRateHz) samples

/-- A certified session with `--codec ulaw` leads from one file to another. -/
def UlawHop (input output : List U8) : Prop :=
  ∃ session : Session, session.senderConfig.codecName = "ulaw" ∧ session.Certified input output

end RtpStreamer
