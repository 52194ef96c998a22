import RtpStreamer.Sender.Sender
import RtpStreamer.Wav.Wav

/-!
# The sender as a process

`main` of `sender.cpp` behind its arguments: choose the codec, read the file, draw the first sequence
number, the first timestamp and the SSRC, and send the samples frame by frame. The sample rate of the file
is not looked at.
-/

namespace RtpStreamer

structure SenderConfig where
  inputPath : String
  codecName : String := "pcm"

/-- What the process draws at random, and the uninitialised `out_buffer`. -/
structure SenderDraw where
  sequenceNumber : U16
  timestamp : U32
  ssrc : U32
  outBuffer : Vector U8 kMaxDatagramBytes

/-- The codec that `--codec` names. -/
def codecOf (codecName : String) : Option CodecName :=
  if codecName = "pcm" then some .pcm
  else if codecName = "ulaw" then some .ulaw
  else if codecName = "adpcm" then some .adpcm
  else none

/-- The process on the file it finds at `inputPath`, `none` when there is none. -/
def runSender (order : ByteOrder) (config : SenderConfig) (file : Option (List U8))
    (draw : SenderDraw) : Sent :=
  match codecOf config.codecName with
  | none =>
    { error := some ("unknown codec '" ++ config.codecName ++ "' (expected pcm, ulaw, or adpcm)") }
  | some codec =>
    match Wav.read config.inputPath file with
    | .error reason => { error := some reason }
    | .ok wav =>
      (Sender.start codec draw.sequenceNumber draw.timestamp draw.ssrc draw.outBuffer).sendLoop order
        codec wav.samples

end RtpStreamer
