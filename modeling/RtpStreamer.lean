import RtpStreamer.Platform
import RtpStreamer.Run.DetSystem
import RtpStreamer.Run.Descent
import RtpStreamer.Run.Stuttering
import RtpStreamer.Run.Fairness
import RtpStreamer.Memory.CheckedMemory
import RtpStreamer.Memory.ReleaseAcquire
import RtpStreamer.Signed.CheckedSigned
import RtpStreamer.Fifo.BoundedFifo
import RtpStreamer.Average.MovingAverage
import RtpStreamer.Quantize.Segmented
import RtpStreamer.Delimited.Record
import RtpStreamer.Codec.Ulaw
import RtpStreamer.Codec.Adpcm
import RtpStreamer.Codec.Proofs.AdpcmProofs
import RtpStreamer.Codec.Proofs.QuantizerProofs
import RtpStreamer.Codec.Proofs.ConvergenceProofs
import RtpStreamer.Codec.Proofs.UlawProofs
import RtpStreamer.Packet.RtpPacket
import RtpStreamer.Packet.Proofs.RtpPacketProofs
import RtpStreamer.Packet.Proofs.BijectionProofs
import RtpStreamer.Wav.Wav
import RtpStreamer.Wav.Grammar
import RtpStreamer.Wav.CheckedWav
import RtpStreamer.Wav.Proofs.ReaderProofs
import RtpStreamer.Wav.Proofs.RoundTripProofs
import RtpStreamer.Wav.Proofs.GrammarProofs
import RtpStreamer.Wav.Proofs.CheckedWavProofs
import RtpStreamer.Jitter.JitterBuffer
import RtpStreamer.Jitter.Reference
import RtpStreamer.Jitter.Tracked
import RtpStreamer.Jitter.Exact
import RtpStreamer.Jitter.CheckedDepth
import RtpStreamer.Jitter.Paced
import RtpStreamer.Jitter.Proofs.SlotProofs
import RtpStreamer.Jitter.Proofs.InvariantProofs
import RtpStreamer.Jitter.Proofs.DrainProofs
import RtpStreamer.Jitter.Proofs.ConservationProofs
import RtpStreamer.Jitter.Proofs.RefinementProofs
import RtpStreamer.Jitter.Proofs.PlayoutProofs
import RtpStreamer.Jitter.Proofs.EndOfStreamProofs
import RtpStreamer.Jitter.Proofs.TrackedProofs
import RtpStreamer.Jitter.Proofs.PendingProofs
import RtpStreamer.Jitter.Proofs.LatenessProofs
import RtpStreamer.Jitter.Proofs.LatencyProofs
import RtpStreamer.Jitter.Proofs.LapProofs
import RtpStreamer.Jitter.Proofs.TimestampProofs
import RtpStreamer.Jitter.Proofs.ClockProofs
import RtpStreamer.Jitter.Proofs.DepthProofs
import RtpStreamer.Jitter.Proofs.NoninterferenceProofs
import RtpStreamer.Jitter.Proofs.StreamProofs
import RtpStreamer.Jitter.Proofs.TimelinessProofs
import RtpStreamer.Jitter.Proofs.SettlingProofs
import RtpStreamer.Stats.SequenceTracker
import RtpStreamer.Stats.Proofs.SequenceTrackerProofs
import RtpStreamer.Stats.Proofs.DuplicateProofs
import RtpStreamer.Sender.Sender
import RtpStreamer.Sender.Process
import RtpStreamer.Sender.Proofs.FramingProofs
import RtpStreamer.Sender.Proofs.SenderProofs
import RtpStreamer.Sender.Proofs.AlignmentProofs
import RtpStreamer.Sender.Proofs.ByteOrderProofs
import RtpStreamer.Ring.SpscRing
import RtpStreamer.Ring.WeakRing
import RtpStreamer.Ring.Proofs.SpscRingProofs
import RtpStreamer.Ring.Proofs.WeakRingProofs
import RtpStreamer.Receiver.CheckedReceiver
import RtpStreamer.Receiver.Threads
import RtpStreamer.Receiver.SampleClock
import RtpStreamer.Receiver.Proofs.CheckedReceiverProofs
import RtpStreamer.Receiver.Proofs.ThreadsProofs
import RtpStreamer.Receiver.Proofs.DrainLoopProofs
import RtpStreamer.Receiver.Proofs.SampleClockProofs
import RtpStreamer.Receiver.Process
import RtpStreamer.Receiver.WeakProcess
import RtpStreamer.Receiver.Proofs.ProcessProofs
import RtpStreamer.Receiver.Proofs.ReportProofs
import RtpStreamer.Receiver.Proofs.TerminationProofs
import RtpStreamer.Receiver.Proofs.UnderrunProofs
import RtpStreamer.Receiver.Proofs.SilenceProofs
import RtpStreamer.Receiver.Proofs.WeakProcessProofs
import RtpStreamer.Receiver.Proofs.WeakReportProofs
import RtpStreamer.Receiver.Proofs.WeakExitProofs
import RtpStreamer.Receiver.Proofs.WeakInterleavingProofs
import RtpStreamer.System.Proofs.TransmissionProofs
import RtpStreamer.System.Proofs.WeakTransmissionProofs
import RtpStreamer.Impair.Middlebox
import RtpStreamer.Impair.Proofs.MiddleboxProofs
import RtpStreamer.System.Proofs.ImpairedProofs
import RtpStreamer.System.Proofs.TimelySessionProofs
import RtpStreamer.System.Session
import RtpStreamer.System.Proofs.UlawSessionProofs
