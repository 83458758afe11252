import TinyBpfLog.Runtime.Decoder

/-!
# The compressor

The compression thread writes the dictionary entries of the formats that are new,
and extents with the statements of one thread each.  It writes whole statements, as
many as there is room for in the worst case.  What it has written is read back as
the same statements.
-/

namespace TinyBpfLog.Runtime

open Foundation
open Bpftools (lowBytes length_lowBytes)
open Format (Directive Token)

/-! ## Where a format is logged -/

/-- What is registered of an invocation; the parameters are those of its two functions. -/
structure StaticLogInfo where
  filename : CString
  lineNum : UInt32
  severity : UInt8
  formatString : CString
  numNibbles : Nat
  params : List (ParamType × ArgType)
  deriving DecidableEq

/-- What the macro and `log` make of an invocation where it is compiled. -/
def staticLogInfo (filename : CString) (lineNum : UInt32) (severity : UInt8)
    (formatString : CString) (argTypes : List ArgType) : Except String StaticLogInfo :=
  match getNumNibblesNeeded formatString.bytes, countFmtParams formatString.bytes with
  | .error message, _ => .error message
  | _, .error message => .error message
  | .ok numNibbles, .ok nParams =>
      if nParams ≠ argTypes.length then
        .error "assert(N == static_cast<uint32_t>(sizeof...(Ts)))"
      else
        (analyzeFormatString nParams formatString.bytes).map fun paramTypes =>
          ⟨filename, lineNum, severity, formatString, numNibbles, paramTypes.zip argTypes⟩

/-! ## Entries -/

structure UncompressedEntry where
  fmtId : UInt32
  entrySize : UInt32
  timestamp : UInt64
  deriving DecidableEq, Repr

def UncompressedEntry.bytes (entry : UncompressedEntry) : Bytes :=
  lowBytes 4 entry.fmtId.toNat ++
    (lowBytes 4 entry.entrySize.toNat ++ lowBytes 8 entry.timestamp.toNat)

/-- The entry in front of the bytes, and its `argData`. -/
def readUncompressedEntry (input : Bytes) : Option (UncompressedEntry × Bytes) :=
  (load 4 input).bind fun (fmtId, input) =>
    (load 4 input).bind fun (entrySize, input) =>
      (load 8 input).map fun (timestamp, input) =>
        (⟨fmtId.toUInt32, entrySize.toUInt32, timestamp⟩, input)

/-- The bytes that `log` puts into the staging buffer. -/
def log (logId : UInt32) (timestamp : UInt64) (params : List (ParamType × Arg)) :
    Except String Bytes :=
  let allocSize := getArgSizes (-1) params + 16
  (storeArguments params (stringSizes (-1) params)).map fun args =>
    UncompressedEntry.bytes ⟨logId, allocSize.toUInt32, timestamp⟩ ++ args

theorem eq_ok_of_toOption {ε α : Type*} {result : Except ε α} {a : α}
    (h : result.toOption = some a) : result = .ok a := by
  cases result with
  | error message => cases h
  | ok value => exact congrArg Except.ok (Option.some.inj h)

/-- A call of `log` where the format is registered. -/
structure LogCall where
  logId : UInt32
  timestamp : UInt64
  args : List Arg
  deriving DecidableEq

/-- The arguments with the types of parameters that the format has for them. -/
def LogCall.params (info : StaticLogInfo) (call : LogCall) : List (ParamType × Arg) :=
  (info.params.map Prod.fst).zip call.args

/-- What the call stores; its arguments have the types that the format was compiled for. -/
def LogCall.store (info : StaticLogInfo) (call : LogCall) : Option Bytes :=
  if call.args.map Arg.type = info.params.map Prod.snd then
    (log call.logId call.timestamp (call.params info)).toOption
  else none

def compressLogHeader (entry : UncompressedEntry) (lastTimestamp : UInt64) : Bytes :=
  let fmtId := packUnsigned entry.fmtId.toUInt64
  let difference := packInt64 (entry.timestamp - lastTimestamp).toInt64
  (1 + 4 * ((fmtId.nibble - 1) % 4) + 16 * (difference.nibble % 16)).toUInt8 ::
    (fmtId.bytes ++ difference.bytes)

/-- What a compressed entry may take at most; the sum has 32 bits. -/
def UncompressedEntry.maxCompressedSize (entry : UncompressedEntry) : Nat :=
  2 * entry.entrySize.toNat % 2 ^ 32 + 16

/-! ## The encoder -/

/-- The buffer up to `writePos`, and where the length of the last extent is in it. -/
structure Encoder where
  size : Nat
  written : Bytes
  currentExtentSize : Option Nat
  deriving DecidableEq, Repr

def Encoder.free (encoder : Encoder) : Nat :=
  encoder.size - encoder.written.length

/--
A checkpoint without a dictionary: packed, so that its type is in a byte of its own,
with the other bits of which nothing is done.
-/
def checkpoint (stale : UInt8) (rdtsc unixTime cyclesPerSecond : UInt64) : Bytes :=
  lowBytes 1 (3 + 4 * (stale.toNat / 4)) ++ (lowBytes 8 rdtsc.toNat ++
    (lowBytes 8 unixTime.toNat ++ (lowBytes 8 cyclesPerSecond.toNat ++
      (lowBytes 4 0 ++ lowBytes 4 0))))

/-- The process exits where there is no room for the checkpoint. -/
def Encoder.new (size : Nat) (stale : UInt8) (rdtsc unixTime cyclesPerSecond : UInt64) :
    Option Encoder :=
  if size < 33 then none
  else some ⟨size, checkpoint stale rdtsc unixTime cyclesPerSecond, none⟩

def StaticLogInfo.bytes (info : StaticLogInfo) : Bytes :=
  lowBytes 1 info.severity.toNat ++ (lowBytes 4 info.lineNum.toNat ++
    (lowBytes 2 (info.filename.bytes.length + 1) ++
      (lowBytes 2 (info.formatString.bytes.length + 1) ++
        (info.filename.bytes ++ [0] ++ (info.formatString.bytes ++ [0])))))

/-- The entries that there is room for, how many they are, and their bytes. -/
def encodeInfos : Nat → List StaticLogInfo → Nat × Bytes
  | _, [] => (0, [])
  | free, curr :: allMetadata =>
      if free ≤ curr.bytes.length then (0, [])
      else
        let (count, bytes) := encodeInfos (free - curr.bytes.length) allMetadata
        (count + 1, curr.bytes ++ bytes)

/-- The header of a fragment, which is complete when its entries are, and the entries. -/
def dictionaryFragment (totalMetadataEntries : Nat) (entries : Bytes) : Bytes :=
  lowBytes 4 (1 + 4 * ((8 + entries.length) % 2 ^ 30)) ++
    (lowBytes 4 totalMetadataEntries ++ entries)

def Encoder.encodeNewDictionaryEntries (encoder : Encoder) (currentPosition : Nat)
    (allMetadata : List StaticLogInfo) : Encoder × Nat :=
  if encoder.free ≤ 8 then (encoder, currentPosition)
  else
    let (count, bytes) := encodeInfos (encoder.free - 8) (allMetadata.drop currentPosition)
    ({ encoder with
        written := encoder.written ++ dictionaryFragment (currentPosition + count) bytes },
      currentPosition + count)

def bufferExtent (wrapAround isShort : Bool) (threadIdOrPackNibble : Nat) : UInt8 :=
  (2 + 4 * wrapAround.toNat + 8 * isShort.toNat + 16 * (threadIdOrPackNibble % 16)).toUInt8

/-- The marker of an extent with `body` bytes behind it. -/
def extentHeader (bufferId : UInt32) (newPass : Bool) (body : Nat) : Bytes :=
  if bufferId < 16 then
    bufferExtent newPass true bufferId.toNat :: lowBytes 4 (5 + body)
  else
    let packed := packUnsigned bufferId.toUInt64
    bufferExtent newPass false packed.nibble ::
      (lowBytes 4 (5 + (packed.bytes.length + body)) ++ packed.bytes)

/-- There is nothing where the marker does not fit. -/
def Encoder.encodeBufferExtentStart (encoder : Encoder) (bufferId : UInt32)
    (newPass : Bool) : Option Encoder :=
  if encoder.free < 9 then none
  else
    some { encoder with
      written := encoder.written ++ extentHeader bufferId newPass 0
      currentExtentSize := some (encoder.written.length + 1) }

def addToSize (written : Bytes) (offset amount : Nat) : Option Bytes :=
  (load 4 (written.drop offset)).map fun (currentSize, rest) =>
    written.take offset ++ (lowBytes 4 (currentSize.toNat + amount) ++ rest)

/--
The loop of `encodeLogMsgs`: the bytes that remain, and what is written.  An entry that
is too large for its staging buffer is taken although it does not end before them.
-/
def encodeEntries (dictionary : List StaticLogInfo) (stale : Nat → Nat) (size : Nat)
    (lastTimestamp : UInt64) (remaining : Int) (input written : Bytes) :
    Option (Int × Bytes) :=
  if remaining ≤ 0 then some (remaining, written)
  else
    match readUncompressedEntry input with
    | none => none
    | some (entry, argData) =>
        match dictionary[entry.fmtId.toNat]? with
        | none => some (remaining, written)
        | some info =>
            if remaining < entry.entrySize.toNat ∧
                entry.entrySize.toNat < stagingBufferSize / 2 then
              some (remaining, written)
            else if size - written.length < entry.maxCompressedSize then
              some (remaining, written)
            else
              match compress info.numNibbles info.params (stale written.length) argData with
              | none => none
              | some (packed, _) =>
                  encodeEntries dictionary stale size entry.timestamp
                    (remaining - entry.entrySize.toNat) (input.drop entry.entrySize.toNat)
                    (written ++ (compressLogHeader entry lastTimestamp ++ packed))
termination_by size - written.length
decreasing_by
  have hroom : 16 ≤ entry.maxCompressedSize := Nat.le_add_left _ _
  simp only [List.length_append, compressLogHeader, List.length_cons]
  omega

/-- How many bytes are taken of the input, which goes on behind them. -/
def Encoder.encodeLogMsgs (encoder : Encoder) (stale : Nat → Nat) (input : Bytes)
    (nbytes : Nat) (bufferId : UInt32) (newPass : Bool) (dictionary : List StaticLogInfo) :
    Option (Int × Encoder) :=
  match encoder.encodeBufferExtentStart bufferId newPass with
  | none => some (0, encoder)
  | some started =>
      (encodeEntries dictionary stale started.size 0 nbytes input started.written).bind
        fun (remaining, written) =>
          started.currentExtentSize.bind fun offset =>
            (addToSize written offset (written.length - started.written.length)).map
              fun written => (nbytes - remaining, { started with written := written })

/-- The bytes that are handed out, and the encoder with an empty buffer. -/
def Encoder.swapBuffer (encoder : Encoder) (size : Nat) : Bytes × Encoder :=
  (encoder.written, ⟨size, [], none⟩)

end TinyBpfLog.Runtime
