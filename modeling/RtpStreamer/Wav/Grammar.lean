import RtpStreamer.Delimited.Record
import RtpStreamer.Wav.Wav
import Mathlib.Logic.Relation

/-!
# The RIFF grammar

What a WAV file is, stated without the reader: a header, chunks, and the first data chunk. A chunk is a
record whose header holds a 4-byte id and a little-endian size; the body has that size, and a byte of
padding follows a body of odd size.

`ReadsGrammar` says that the reader accepts exactly these files and never takes bytes inside a chunk for
a header, and `Misaligned` describes the files on which it does.
-/

namespace RtpStreamer

namespace Wav

open Delimited

def riffFormat : Format U8 where
  headerLength := 8
  extent chunkHeader :=
    (readU32le chunkHeader 4).toNat + (readU32le chunkHeader 4).toNat % 2

abbrev Chunk := Record riffFormat

/-- The four bytes that name the chunk. -/
def chunkId (c : Chunk) : List U8 := c.header.take 4

/-- The size of the body. -/
def chunkSize (c : Chunk) : Nat := (readU32le c.header 4).toNat

/-- The payload without its padding. -/
def chunkBody (c : Chunk) : List U8 := c.payload.take (chunkSize c)

/-- A fmt chunk of uncompressed PCM. -/
def IsPcm (c : Chunk) : Prop := 16 ≤ chunkSize c ∧ readU16le (chunkBody c) 0 = 1

/-- The last fmt chunk. -/
def lastFmt (chunks : List Chunk) : Option Chunk := (chunks.filter (chunkId · = fmtId)).getLast?

/-! ## Well-formed files -/

/-- A well-formed file, cut into its parts. Nothing is said about the bytes behind the data. -/
structure WavFile where
  header : List U8
  /-- The chunks in front of the data chunk. -/
  chunks : List Chunk
  fmt : Chunk
  dataHeader : List U8
  body : List U8
  rest : List U8
  header_length : header.length = 12
  header_riff : header.take 4 = riffId
  header_wave : header.drop 8 = waveId
  chunks_not_data : ∀ c ∈ chunks, chunkId c ≠ dataId
  chunks_pcm : ∀ c ∈ chunks, chunkId c = fmtId → IsPcm c
  fmt_last : lastFmt chunks = some fmt
  fmt_mono : readU16le (chunkBody fmt) 2 = 1
  fmt_sixteen : readU16le (chunkBody fmt) 14 = 16
  dataHeader_length : dataHeader.length = 8
  dataHeader_id : dataHeader.take 4 = dataId
  body_length : body.length = (readU32le dataHeader 4).toNat

namespace WavFile

/-- The file as it is written. -/
def bytes (f : WavFile) : List U8 :=
  f.header ++ (encode f.chunks ++ (f.dataHeader ++ (f.body ++ f.rest)))

/-- What the file holds. -/
def value (f : WavFile) : WavData where
  sampleRate := readU32le (chunkBody f.fmt) 4
  numChannels := 1
  bitsPerSample := 16
  samples := samplesOf f.body

end WavFile

/-- The bytes are a well-formed file that holds the data. -/
def RiffWave (file : List U8) (data : WavData) : Prop :=
  ∃ f : WavFile, f.bytes = file ∧ f.value = data

/-! ## The headers that the reader sees -/

/-- One round of the loop of `read` leads to another. -/
def Round (path : String) (file : List U8) (st st' : ReadState) : Prop :=
  st.haveData = false ∧ readChunk path file st = .ok (some st')

/-- The loop is at a header. -/
def ReadsHeader (file : List U8) (st : ReadState) : Prop :=
  st.haveData = false ∧ st.position + 8 ≤ file.length

/-- The state in which the loop starts. -/
def start : ReadState := { position := 12 }

/-- Every header that the loop reads after another one lies behind the chunk of that one. -/
def HeadersOutside (path : String) (file : List U8) : Prop :=
  opensRiff file = true → ∀ st st', Relation.ReflTransGen (Round path file) start st →
    Relation.TransGen (Round path file) st st' → ReadsHeader file st' →
    st.position + 8 + riffFormat.extent (fread file st.position 8) ≤ st'.position

/-- The reader accepts exactly the well-formed files, and takes no bytes inside a chunk for a header. -/
def ReadsGrammar (path : String) (file : List U8) : Prop :=
  (∀ data, read path (some file) = .ok data ↔ RiffWave file data) ∧ HeadersOutside path file

/-! ## The files that mislead the reader -/

/-- A chunk behind which the reader finds the next header. -/
structure Aligned (c : Chunk) : Prop where
  not_data : chunkId c ≠ dataId
  fmt : chunkId c = fmtId → IsPcm c ∧ chunkSize c % 2 = 0
  other : chunkId c ≠ fmtId → chunkSize c ≠ 0xFFFFFFFF

/-- A header after which the reader goes on inside the chunk: a PCM fmt chunk of odd size, whose padding
it does not skip, or an unknown chunk of size 2^32 - 1, of which it skips nothing. Behind what the reader
skips there are at least eight bytes more. -/
def LeavesInside (chunkHeader tail : List U8) : Prop :=
  let size := (readU32le chunkHeader 4).toNat
  chunkHeader.take 4 = fmtId ∧ 16 ≤ size ∧ size % 2 = 1 ∧ readU16le (tail.take size) 0 = 1 ∧
      size + 8 ≤ tail.length ∨
    chunkHeader.take 4 ≠ fmtId ∧ chunkHeader.take 4 ≠ dataId ∧ size = 0xFFFFFFFF ∧ 8 ≤ tail.length

/-- The file leads through aligned chunks to such a header. -/
def Misaligned (file : List U8) : Prop :=
  opensRiff file = true ∧ ∃ (chunks : List Chunk) (chunkHeader tail : List U8),
    file.drop 12 = encode chunks ++ (chunkHeader ++ tail) ∧ (∀ c ∈ chunks, Aligned c) ∧
    chunkHeader.length = 8 ∧ LeavesInside chunkHeader tail

end Wav

end RtpStreamer
