import TinyBpfLog.Foundation.Stream
import TinyBpfLog.Runtime.Statement

/-!
# The decompressor

A compressed log is a sequence of entries, told apart by the two low bits of their
first byte: the fragments of the dictionary, and the extents with the statements
of one thread each.  The decompressor reads one entry after the other.
-/

namespace TinyBpfLog.Runtime

open Foundation
open Format (Directive)

inductive EntryType where
  | invalid
  | logMsgsOrDic
  | bufferExtent
  | checkpoint
  deriving DecidableEq, Repr

def peekEntryType (header : UInt8) : EntryType :=
  if header.toNat % 4 = 0 then .invalid
  else if header.toNat % 4 = 1 then .logMsgsOrDic
  else if header.toNat % 4 = 2 then .bufferExtent
  else .checkpoint

/-- `NanoLogConfig::STAGING_BUFFER_SIZE` -/
def stagingBufferSize : Nat :=
  2 ^ 20

/-- The bytes that a fragment can store, with those of the header of an extent. -/
def fragmentSize : Nat :=
  stagingBufferSize + 9

/-! ## Statements -/

def decompressLogHeader (input : Bytes) (lastTimestamp : UInt64) :
    Option (UInt32 × UInt64 × Bytes) :=
  match input with
  | [] => none
  | header :: input =>
      if peekEntryType header ≠ .logMsgsOrDic then none
      else
        (unpack (header.toNat / 4 % 4 + 1) input).bind fun (logId, input) =>
          (unpack (header.toNat / 16) input).map fun (difference, input) =>
            (logId.toUInt32, difference + lastTimestamp, input)

/-- What is printed of a statement, but for the time of day. -/
structure Statement where
  runtimeId : UInt32
  timestamp : UInt64
  filename : Bytes
  lineNumber : UInt32
  logLevel : UInt8
  text : Bytes
  deriving DecidableEq, Repr

inductive Event where
  | newExecution
  | statement (statement : Statement)
  deriving DecidableEq, Repr

/-- The bytes from `readPos` to `endOfBuffer`, and the header in front of them. -/
structure BufferFragment where
  runtimeId : UInt32
  readPos : Bytes
  -- the next id and timestamp, if there are more logs
  nextLog : Option (UInt32 × UInt64)
  deriving DecidableEq, Repr

/-- The fragment with the next header taken, if it is there. -/
def BufferFragment.advance (runtimeId : UInt32) (readPos : Bytes)
    (lastTimestamp : UInt64) : BufferFragment :=
  if readPos = [] then ⟨runtimeId, readPos, none⟩
  else
    match decompressLogHeader readPos lastTimestamp with
    | none => ⟨runtimeId, readPos, none⟩
    | some (logId, timestamp, readPos) => ⟨runtimeId, readPos, some (logId, timestamp)⟩

/-- The statements of a format identifier, or nothing if there was an error in its format. -/
abbrev Metadata := List (Option FormatMetadata)

section Printing

-- how the library prints a number, or a real number that is given by its bits
variable (formatNumber : Directive → Option Int → Option Int → UInt64 → Bytes)

/-- The next statement of a fragment that has one, and the fragment behind it. -/
def decompressNextLogStatement (fmtId2metadata : Metadata) (bf : BufferFragment) :
    Option (Statement × BufferFragment) :=
  bf.nextLog.bind fun (nextLogId, nextLogTimestamp) =>
    (fmtId2metadata[nextLogId.toNat]?.join).bind fun metadata =>
      (printStatement formatNumber metadata bf.readPos).map fun (text, readPos) =>
        ({ runtimeId := bf.runtimeId
           timestamp := nextLogTimestamp
           filename := metadata.filename
           lineNumber := metadata.lineNumber
           logLevel := metadata.logLevel
           text := text },
          BufferFragment.advance bf.runtimeId readPos nextLogTimestamp)

/-- All the statements of a fragment; every one takes a byte at least. -/
def drain (fmtId2metadata : Metadata) : Nat → BufferFragment → Option (List Statement)
  | fuel, bf =>
      if bf.nextLog = none then some []
      else
        match fuel with
        | 0 => none
        | fuel + 1 =>
            (decompressNextLogStatement formatNumber fmtId2metadata bf).bind
              fun (statement, bf) => (drain fmtId2metadata fuel bf).map (statement :: ·)

variable {fmtId2metadata : Metadata} {bf next : BufferFragment}

theorem drain_done (h : bf.nextLog = none) (fuel : Nat) :
    drain formatNumber fmtId2metadata fuel bf = some [] := by
  unfold drain
  exact if_pos h

theorem drain_next {statement : Statement}
    (h : decompressNextLogStatement formatNumber fmtId2metadata bf = some (statement, next))
    (fuel : Nat) :
    drain formatNumber fmtId2metadata (fuel + 1) bf =
      (drain formatNumber fmtId2metadata fuel next).map (statement :: ·) := by
  have hmore : bf.nextLog ≠ none := by
    intro hnone
    rw [decompressNextLogStatement, hnone] at h
    cases h
  conv_lhs => unfold drain
  simp only [if_neg hmore, h, Option.bind_some]

end Printing

/-! ## Extents -/

/-- What `readBufferExtent` returns, and the rest of the file. -/
inductive ExtentRead where
  | corrupt (rest : Bytes)
  | read (bf : BufferFragment) (wrapAround : Bool) (rest : Bytes)
  deriving DecidableEq, Repr

def readRuntimeId (header : UInt8) (readPos : Bytes) : Option (UInt32 × Bytes) :=
  if header.toNat / 8 % 2 = 1 then some ((header.toNat / 16).toUInt32, readPos)
  else (unpack (header.toNat / 16) readPos).map fun (id, readPos) => (id.toUInt32, readPos)

/-- Nothing comes of an extent that fails an assertion or ends within its own id. -/
def readBufferExtent (input : Bytes) : Option ExtentRead :=
  match input with
  | [] => some (.corrupt [])
  | header :: input =>
      match load 4 input with
      | none => some (.corrupt [])
      | some (length, input) =>
          if peekEntryType header ≠ .bufferExtent ∨ fragmentSize < length.toNat then
            some (.corrupt input)
          else if length.toNat < 5 then none
          else if input.length < length.toNat - 5 then some (.corrupt [])
          else
            let storage := input.take (length.toNat - 5)
            let rest := input.drop (length.toNat - 5)
            (readRuntimeId header storage).map fun (runtimeId, readPos) =>
              let bf := BufferFragment.advance runtimeId readPos 0
              if readPos ≠ [] ∧ bf.nextLog = none then .corrupt rest
              else .read bf (header.toNat / 4 % 2 = 1) rest

/-! ## The dictionary -/

/-- A `CompressedLogInfo` with what follows it: the strings are read up to their NUL. -/
structure CompressedLogInfo where
  severity : UInt8
  linenum : UInt32
  filename : Bytes
  formatString : Bytes
  deriving DecidableEq, Repr

/-- The entry, the number of bytes that are read, and the bytes behind them. -/
def readCompressedLogInfo (input : Bytes) : Option (CompressedLogInfo × Nat × Bytes) :=
  (load 1 input).bind fun (severity, input) =>
    (load 4 input).bind fun (linenum, input) =>
      (load 2 input).bind fun (filenameLength, input) =>
        (load 2 input).bind fun (formatStringLength, input) =>
          if input.length < filenameLength.toNat + formatStringLength.toNat then none
          else
            let filename := input.take filenameLength.toNat
            let input := input.drop filenameLength.toNat
            some
              ({ severity := severity.toUInt8
                 linenum := linenum.toUInt32
                 filename := cString filename
                 formatString := cString (input.take formatStringLength.toNat) },
                9 + filenameLength.toNat + formatStringLength.toNat,
                input.drop formatStringLength.toNat)

theorem readCompressedLogInfo_pos {input rest : Bytes} {cli : CompressedLogInfo}
    {newBytesRead : Nat} (h : readCompressedLogInfo input = some (cli, newBytesRead, rest)) :
    0 < newBytesRead := by
  obtain ⟨_, _, h⟩ := Option.bind_eq_some_iff.mp h
  obtain ⟨_, _, h⟩ := Option.bind_eq_some_iff.mp h
  obtain ⟨_, _, h⟩ := Option.bind_eq_some_iff.mp h
  obtain ⟨_, _, h⟩ := Option.bind_eq_some_iff.mp h
  dsimp only at h
  split at h
  · cases h
  · cases h
    omega

/--
The metadata for the next identifier.  Where there is an error in the format nothing
is kept, and the identifier comes to stand for what is put there next.
-/
def pushMetadata (fmtId2metadata : Metadata) (microCode : Option FormatMetadata) :
    Metadata :=
  match microCode with
  | none => fmtId2metadata ++ [none]
  | some fm => fmtId2metadata.map (fun metadata => some (metadata.getD fm)) ++ [some fm]

/-- The loop of `readDictionaryFragment`. -/
def readLogInfos (newMetadataBytes bytesRead : Nat) (fmtId2metadata : Metadata)
    (input : Bytes) : Option (Metadata × Bytes) :=
  if _hmore : bytesRead < newMetadataBytes then
    match _hread : readCompressedLogInfo input with
    | none => none
    | some (cli, newBytesRead, input) =>
        readLogInfos newMetadataBytes (bytesRead + newBytesRead)
          (pushMetadata fmtId2metadata
            (createMicroCode cli.formatString cli.filename cli.linenum cli.severity))
          input
  else some (fmtId2metadata, input)
termination_by newMetadataBytes - bytesRead
decreasing_by
  have hpos := readCompressedLogInfo_pos _hread
  omega

def readDictionaryFragment (fmtId2metadata : Metadata) (input : Bytes) :
    Option (Metadata × Bytes) :=
  (load 4 input).bind fun (header, input) =>
    (load 4 input).bind fun (_totalMetadataEntries, input) =>
      readLogInfos (header.toNat / 4) 8 fmtId2metadata input

/--
The bytes behind a checkpoint, with which the dictionary starts anew.  The times in
it are for the clock only.  The dictionary that the preprocessor puts behind a
checkpoint is left out.
-/
def readDictionary (input : Bytes) : Option Bytes :=
  match input with
  | [] => none
  | header :: _ =>
      if peekEntryType header ≠ .checkpoint then none
      else
        (load 4 (input.drop 25)).bind fun (newMetadataBytes, rest) =>
          (load 4 rest).bind fun (totalMetadataEntries, rest) =>
            if newMetadataBytes = 0 ∧ totalMetadataEntries = 0 then some rest else none

/-! ## The file -/

structure Decoder where
  fmtId2metadata : Metadata
  good : Bool
  deriving DecidableEq, Repr

section Printing

variable (formatNumber : Directive → Option Int → Option Int → UInt64 → Bytes)

/-- One turn of the loop; where `good` is lost nothing more is read. -/
def Decoder.readEntry (decoder : Decoder) (input : Bytes) :
    Option (List Event × Decoder × Bytes) :=
  match input with
  | [] => none
  | header :: after =>
      match peekEntryType header with
      | .bufferExtent =>
          (readBufferExtent input).bind fun
            | .corrupt rest => some ([], decoder, rest)
            | .read bf _ rest =>
                (drain formatNumber decoder.fmtId2metadata (bf.readPos.length + 1) bf).map
                  fun statements => (statements.map .statement, decoder, rest)
      | .checkpoint =>
          match readDictionary input with
          | none => some ([], { decoder with good := false }, [])
          | some rest => some ([.newExecution], { decoder with fmtId2metadata := [] }, rest)
      | .logMsgsOrDic =>
          match readDictionaryFragment decoder.fmtId2metadata input with
          | none => some ([], { decoder with good := false }, [])
          | some (fmtId2metadata, rest) => some ([], ⟨fmtId2metadata, true⟩, rest)
      | .invalid =>
          some ([], decoder, after.dropWhile fun byte => peekEntryType byte = .invalid)

end Printing

end TinyBpfLog.Runtime
