import TinyBpfLog.Runtime.Dictionary

/-!
# Extents

An extent holds the statements of one thread, each with what its timestamp differs by
from the one before.  The decompressor prints of an extent the statements that the
compressor put there, in the order in which they were logged.
-/

namespace TinyBpfLog.Runtime

open Foundation
open Bpftools (lowBytes length_lowBytes)
open Format (Directive Token)

/-! ## What is read back of an entry -/

theorem numBytes_toUInt64_le (val : UInt32) : numBytes val.toUInt64.toNat ≤ 4 := by
  rw [numBytes_le_iff (by decide) (by decide), UInt32.toNat_toUInt64]
  exact val.toNat_lt

/-- The id and the timestamp are read back, whatever timestamp the difference is to. -/
theorem decompressLogHeader_compress (entry : UncompressedEntry) (lastTimestamp : UInt64)
    (rest : Bytes) :
    decompressLogHeader (compressLogHeader entry lastTimestamp ++ rest) lastTimestamp =
      some (entry.fmtId, entry.timestamp, rest) := by
  have hsize := numBytes_toUInt64_le entry.fmtId
  have hpos := numBytes_pos entry.fmtId.toUInt64.toNat
  have hfmtId := unpack_packUnsigned entry.fmtId.toUInt64
  have hdifference := reads_packInt64 (entry.timestamp - lastTimestamp).toInt64
  rw [compressLogHeader]
  generalize packInt64 (entry.timestamp - lastTimestamp).toInt64 = difference at *
  have hnibble := hdifference.nibble_lt
  have hheader : (1 + 4 * ((numBytes entry.fmtId.toUInt64.toNat - 1) % 4) +
      16 * (difference.nibble % 16)).toUInt8.toNat =
      1 + 4 * (numBytes entry.fmtId.toUInt64.toNat - 1) + 16 * difference.nibble := by
    refine (Nat.mod_eq_of_lt ?_).trans ?_ <;> omega
  have htype : peekEntryType (1 + 4 * ((numBytes entry.fmtId.toUInt64.toNat - 1) % 4) +
      16 * (difference.nibble % 16)).toUInt8 = .logMsgsOrDic := by
    rw [peekEntryType, hheader, if_neg (by omega), if_pos (by omega)]
  have hfirst : (1 + 4 * (numBytes entry.fmtId.toUInt64.toNat - 1) +
      16 * difference.nibble) / 4 % 4 + 1 = numBytes entry.fmtId.toUInt64.toNat := by omega
  have hsecond : (1 + 4 * (numBytes entry.fmtId.toUInt64.toNat - 1) +
      16 * difference.nibble) / 16 = difference.nibble := by omega
  simp only [packUnsigned] at hfmtId
  have hsum : (entry.timestamp - lastTimestamp).toInt64.toUInt64 + lastTimestamp =
      entry.timestamp := by
    rw [UInt64.toUInt64_toInt64, UInt64.sub_add_cancel]
  simp only [packUnsigned, List.cons_append, decompressLogHeader, htype, hheader, hfirst,
    hsecond, List.append_assoc, hfmtId, hdifference.unpack_eq, Option.bind_some,
    Option.map_some, UInt32.toUInt32_toUInt64, hsum, ne_eq, not_true_eq_false, if_false]

theorem length_compressLogHeader_le (entry : UncompressedEntry) (lastTimestamp : UInt64) :
    (compressLogHeader entry lastTimestamp).length ≤ 13 := by
  have hfmtId := numBytes_toUInt64_le entry.fmtId
  have hdifference :
      (packInt64 (entry.timestamp - lastTimestamp).toInt64).bytes.length ≤ 8 :=
    length_packArgument_le .int64 (entry.timestamp - lastTimestamp)
  simp only [compressLogHeader, packUnsigned, List.length_cons, List.length_append,
    length_lowBytes]
  omega

theorem readBufferExtent_cons {header : UInt8} (htype : peekEntryType header = .bufferExtent)
    {storage : Bytes} (hsize : 5 + storage.length ≤ fragmentSize) (rest : Bytes) :
    readBufferExtent (header :: (lowBytes 4 (5 + storage.length) ++ (storage ++ rest))) =
      (readRuntimeId header storage).map fun (runtimeId, readPos) =>
        let bf := BufferFragment.advance runtimeId readPos 0
        if readPos ≠ [] ∧ bf.nextLog = none then .corrupt rest
        else .read bf (header.toNat / 4 % 2 = 1) rest := by
  have hmax : fragmentSize = 1048585 := rfl
  obtain ⟨hload, hlength⟩ := @load_lowBytes 4 (5 + storage.length) (by decide) (by omega)
    (storage ++ rest)
  have hfits : ¬ (storage ++ rest).length < 5 + storage.length - 5 := by
    rw [List.length_append]
    omega
  have hsub : 5 + storage.length - 5 = storage.length := Nat.add_sub_cancel_left _ _
  simp only [readBufferExtent, hload, hlength, htype]
  rw [if_neg (by simp [hsize]), if_neg (by omega), if_neg hfits, hsub,
    List.take_left, List.drop_left]

theorem bufferExtent_fields (wrapAround isShort : Bool) {nibble : Nat} (h : nibble < 16) :
    peekEntryType (bufferExtent wrapAround isShort nibble) = .bufferExtent ∧
      decide ((bufferExtent wrapAround isShort nibble).toNat / 4 % 2 = 1) = wrapAround ∧
      decide ((bufferExtent wrapAround isShort nibble).toNat / 8 % 2 = 1) = isShort ∧
      (bufferExtent wrapAround isShort nibble).toNat / 16 = nibble := by
  have hwrap := wrapAround.toNat_le
  have hshort := isShort.toNat_le
  have hbyte : (bufferExtent wrapAround isShort nibble).toNat =
      2 + 4 * wrapAround.toNat + 8 * isShort.toNat + 16 * nibble := by
    refine (Nat.mod_eq_of_lt ?_).trans ?_ <;> omega
  rw [peekEntryType, hbyte, if_neg (by omega), if_neg (by omega), if_pos (by omega)]
  refine ⟨rfl, ?_, ?_, by omega⟩
  · cases wrapAround <;> simp at * <;> omega
  · cases isShort <;> simp at * <;> omega

/-- An extent is read back with the statements that are in its body. -/
theorem readBufferExtent_extentHeader (bufferId : UInt32) (newPass : Bool) {body : Bytes}
    (hsize : (extentHeader bufferId newPass 0).length + body.length ≤ fragmentSize)
    (hbody : body ≠ [] → (BufferFragment.advance bufferId body 0).nextLog ≠ none)
    (rest : Bytes) :
    readBufferExtent (extentHeader bufferId newPass body.length ++ (body ++ rest)) =
      some (.read (BufferFragment.advance bufferId body 0) newPass rest) := by
  have hgood : ¬ (body ≠ [] ∧ (BufferFragment.advance bufferId body 0).nextLog = none) :=
    fun ⟨hne, hnone⟩ => hbody hne hnone
  rw [extentHeader] at hsize ⊢
  by_cases hshort : bufferId < 16
  · obtain ⟨htype, hwrap, hisShort, hnibble⟩ :=
      bufferExtent_fields newPass true (UInt32.lt_iff_toNat_lt.mp hshort)
    simp only [if_pos hshort, List.length_cons, length_lowBytes] at hsize ⊢
    rw [List.cons_append, readBufferExtent_cons htype (by omega), readRuntimeId,
      if_pos (of_decide_eq_true hisShort), hnibble, hwrap, Option.map_some]
    simp only [Nat.toUInt32_eq, UInt32.ofNat_toNat, if_neg hgood]
  · have hpacked : (packUnsigned bufferId.toUInt64).nibble < 16 :=
      Nat.lt_of_le_of_lt (numBytes_toUInt64_le bufferId) (by decide)
    obtain ⟨htype, hwrap, hisShort, hnibble⟩ := bufferExtent_fields newPass false hpacked
    simp only [if_neg hshort, List.length_cons, List.length_append, length_lowBytes] at hsize ⊢
    rw [← List.length_append, List.cons_append, List.append_assoc, ← List.append_assoc _ body,
      readBufferExtent_cons htype (by rw [List.length_append]; omega), readRuntimeId,
      if_neg (of_decide_eq_false hisShort), hnibble, hwrap, unpack_packUnsigned]
    simp only [Option.map_some, UInt32.toUInt32_toUInt64, if_neg hgood]

theorem extentHeader_cons (bufferId : UInt32) (newPass : Bool) (body : Nat) :
    ∃ header after, extentHeader bufferId newPass body = header :: after ∧
      peekEntryType header = .bufferExtent := by
  rw [extentHeader]
  split
  · next hshort =>
      exact ⟨_, _, rfl,
        (bufferExtent_fields newPass true (UInt32.lt_iff_toNat_lt.mp hshort)).1⟩
  · have hpacked : (packUnsigned bufferId.toUInt64).nibble < 16 :=
      Nat.lt_of_le_of_lt (numBytes_toUInt64_le bufferId) (by decide)
    exact ⟨_, _, rfl, (bufferExtent_fields newPass false hpacked).1⟩

theorem length_extentHeader (bufferId : UInt32) (newPass : Bool) (body : Nat) :
    (extentHeader bufferId newPass body).length =
      (extentHeader bufferId newPass 0).length ∧
    5 ≤ (extentHeader bufferId newPass 0).length ∧
    (extentHeader bufferId newPass 0).length ≤ 9 := by
  have hsize := numBytes_toUInt64_le bufferId
  rw [extentHeader, extentHeader]
  split
  · simp [length_lowBytes]
  · simp only [List.length_cons, List.length_append, length_lowBytes, packUnsigned]
    refine ⟨trivial, ?_, ?_⟩ <;> omega

/-- The length of the last extent grows by that of what is put behind it. -/
theorem addToSize_extentHeader (front : Bytes) (bufferId : UInt32) (newPass : Bool)
    (body : Bytes) :
    addToSize (front ++ (extentHeader bufferId newPass 0 ++ body)) (front.length + 1)
        body.length =
      some (front ++ (extentHeader bufferId newPass body.length ++ body)) := by
  have hpacked := numBytes_toUInt64_le bufferId
  have hadd (first : UInt8) (length : Nat) (hlength : length < 2 ^ 32) (rest : Bytes) :
      addToSize (front ++ first :: (lowBytes 4 length ++ rest)) (front.length + 1)
          body.length =
        some (front ++ first :: (lowBytes 4 (length + body.length) ++ rest)) := by
    obtain ⟨hload, hvalue⟩ := @load_lowBytes 4 length (by decide) hlength rest
    have hsplit : front ++ first :: (lowBytes 4 length ++ rest) =
        (front ++ [first]) ++ (lowBytes 4 length ++ rest) := by
      rw [List.append_assoc, List.singleton_append]
    have hfront : (front ++ [first]).length = front.length + 1 := by simp
    rw [addToSize, hsplit, ← hfront, List.drop_left, List.take_left, hload, Option.map_some]
    dsimp only
    rw [hvalue, List.append_assoc, List.singleton_append]
  rw [extentHeader, extentHeader]
  split
  · rw [List.cons_append, hadd _ _ (by omega)]
    rfl
  · simp only [packUnsigned, length_lowBytes] at hpacked ⊢
    rw [List.cons_append, List.append_assoc, hadd _ _ (by omega)]
    simp [Nat.add_assoc]

/-! ## Calls and what is printed of them -/

section Calls

variable (formatNumber : Directive → Option Int → Option Int → UInt64 → Bytes)

/-- What `printf` prints of the format and the arguments where the call is made. -/
def LogCall.printf (info : StaticLogInfo) (call : LogCall) : Option Bytes :=
  Format.fprintf formatNumber info.formatString.bytes (call.args.map Arg.value)

/-- The statement that is to be printed of the call of a thread. -/
def LogCall.statement (bufferId : UInt32) (info : StaticLogInfo) (call : LogCall) :
    Option Statement :=
  (call.printf formatNumber info).map fun text =>
    { runtimeId := bufferId
      timestamp := call.timestamp
      filename := info.filename.bytes
      lineNumber := info.lineNum
      logLevel := info.severity
      text := text ++ [13, 10] }

/--
`printf` is defined for the call, no width and no precision among its arguments is
negative, and what it stores takes less than half of a staging buffer.
-/
structure LogCall.Printable (info : StaticLogInfo) (call : LogCall) : Prop where
  defined : (call.printf formatNumber info).isSome
  -- the decompressor takes a negative width or precision for none
  nonneg : Nonneg (call.params info)
  -- the compressor complains of anything larger
  stored_lt : ∀ stored ∈ call.store info, stored.length < stagingBufferSize / 2

instance (info : StaticLogInfo) (call : LogCall) :
    Decidable (call.Printable formatNumber info) :=
  decidable_of_iff
    ((call.printf formatNumber info).isSome ∧ Nonneg (call.params info) ∧
      ∀ stored ∈ call.store info, stored.length < stagingBufferSize / 2)
    ⟨fun ⟨defined, nonneg, stored⟩ => ⟨defined, nonneg, stored⟩,
      fun h => ⟨h.defined, h.nonneg, h.stored_lt⟩⟩

end Calls

/-- A printable call of a site, with what `printf` makes of it and what `log` makes of it. -/
structure Message
    (formatNumber : Directive → Option Int → Option Int → UInt64 → Bytes)
    extends LogCall where
  site : Site
  text : Bytes
  stored : Bytes
  render_eq : Format.render formatNumber site.tokens (args.map Arg.value) = some (text, [])
  nonneg : Nonneg (toLogCall.params site.info)
  store_eq : toLogCall.store site.info = some stored
  stored_lt : stored.length < stagingBufferSize / 2

section Message

variable {formatNumber : Directive → Option Int → Option Int → UInt64 → Bytes}

def Message.params (message : Message formatNumber) : List (ParamType × Arg) :=
  message.toLogCall.params message.site.info

def Message.entry (message : Message formatNumber) : UncompressedEntry :=
  ⟨message.logId, message.stored.length.toUInt32, message.timestamp⟩

def Message.statement (bufferId : UInt32) (message : Message formatNumber) : Statement where
  runtimeId := bufferId
  timestamp := message.timestamp
  filename := message.site.filename.bytes
  lineNumber := message.site.lineNum
  logLevel := message.site.severity
  text := message.text ++ [13, 10]

/-- What is stored is what `log` makes of arguments of the right types. -/
theorem LogCall.store_eq_some {site : Site} {call : LogCall} {stored : Bytes}
    (h : call.store site.info = some stored) :
    call.args.map Arg.type = site.argTypes ∧
      log call.logId call.timestamp (call.params site.info) = .ok stored := by
  rw [LogCall.store, site.map_snd_params] at h
  split at h
  · next htypes => exact ⟨htypes, eq_ok_of_toOption h⟩
  · cases h

theorem length_args_of_store {site : Site} {call : LogCall} {stored : Bytes}
    (h : call.store site.info = some stored) :
    (formatParams site.tokens).length = call.args.length := by
  rw [← site.length_argTypes, ← (LogCall.store_eq_some h).1, List.length_map]

theorem LogCall.printf_info (site : Site) (call : LogCall) :
    call.printf formatNumber site.info =
      (Format.render formatNumber site.tokens (call.args.map Arg.value)).map Prod.fst :=
  Format.fprintf_text _ site.readable.wellFormed _

/-- What `printf` prints of a call of a site, all of whose arguments are then used. -/
theorem LogCall.render_of_printf {site : Site} {call : LogCall} {stored : Bytes}
    (hstored : call.store site.info = some stored)
    (h : (call.printf formatNumber site.info).isSome) :
    ∃ text, Format.render formatNumber site.tokens (call.args.map Arg.value) =
      some (text, []) := by
  rw [LogCall.printf_info, Option.isSome_map] at h
  obtain ⟨⟨text, left⟩, hrender⟩ := Option.isSome_iff_exists.mp h
  have hlength := Format.length_render formatNumber hrender
  rw [List.length_map, ← length_args_of_store hstored, length_formatParams] at hlength
  obtain rfl : left = [] := List.eq_nil_of_length_eq_zero (by omega)
  exact ⟨text, hrender⟩

theorem LogCall.Printable.exists_message {site : Site} {call : LogCall} {stored : Bytes}
    (h : call.Printable formatNumber site.info)
    (hstored : call.store site.info = some stored) :
    ∃ message : Message formatNumber,
      message.toLogCall = call ∧ message.site = site ∧ message.stored = stored := by
  obtain ⟨text, hrender⟩ := LogCall.render_of_printf hstored h.defined
  exact ⟨⟨call, site, text, stored, hrender, h.nonneg, hstored, h.stored_lt _ hstored⟩,
    rfl, rfl, rfl⟩

theorem Message.length_args (message : Message formatNumber) :
    (formatParams message.site.tokens).length = message.args.length :=
  length_args_of_store message.store_eq

theorem Message.params_eq (message : Message formatNumber) :
    message.params = (formatParams message.site.tokens).zip message.args := by
  rw [Message.params, LogCall.params, message.site.map_fst_params]

theorem Message.map_fst (message : Message formatNumber) :
    message.params.map Prod.fst = formatParams message.site.tokens := by
  rw [message.params_eq, List.map_fst_zip (Nat.le_of_eq message.length_args)]

theorem Message.map_value (message : Message formatNumber) :
    message.params.map (fun param => param.2.value) = message.args.map Arg.value := by
  have hsnd : message.params.map Prod.snd = message.args := by
    rw [message.params_eq, List.map_snd_zip (Nat.le_of_eq message.length_args.symm)]
  rw [← hsnd, List.map_map]
  rfl

theorem Message.map_type (message : Message formatNumber) :
    message.params.map (fun param => (param.1, param.2.type)) = message.site.info.params := by
  have hparams : message.site.info.params =
      (formatParams message.site.tokens).zip (message.args.map Arg.type) := by
    rw [(LogCall.store_eq_some message.store_eq).1]
    rfl
  rw [hparams, message.params_eq, List.zip_map_right]
  rfl

theorem Message.suits (message : Message formatNumber) :
    ∀ param ∈ message.params, Suits param :=
  suits_of_render formatNumber message.map_fst (message.map_value ▸ message.render_eq)

theorem Message.stored_eq (message : Message formatNumber) :
    ∃ args, storeArguments message.params (stringSizes (-1) message.params) = .ok args ∧
      message.stored = message.entry.bytes ++ args ∧
      message.stored.length = 16 + args.length := by
  have hlog := (LogCall.store_eq_some message.store_eq).2
  rw [log, ← Message.params] at hlog
  cases hargs : storeArguments message.params (stringSizes (-1) message.params) with
  | error text => rw [hargs] at hlog; cases hlog
  | ok args =>
      have hsize := length_storeArguments hargs
      rw [hargs] at hlog
      have hstored := (Except.ok.inj hlog).symm
      have hlength : message.stored.length = 16 + args.length := by
        simp only [hstored, UncompressedEntry.bytes, List.length_append, length_lowBytes]
      refine ⟨args, rfl, ?_, hlength⟩
      rw [Message.entry, hlength, hsize, Nat.add_comm]
      exact hstored

theorem readUncompressedEntry_bytes (entry : UncompressedEntry) (rest : Bytes) :
    readUncompressedEntry (entry.bytes ++ rest) = some (entry, rest) := by
  have hfmtId := fun rest => (@load_lowBytes 4 entry.fmtId.toNat (by decide)
    entry.fmtId.toNat_lt rest).1
  have hentrySize := fun rest => (@load_lowBytes 4 entry.entrySize.toNat (by decide)
    entry.entrySize.toNat_lt rest).1
  have htimestamp := fun rest => (@load_lowBytes 8 entry.timestamp.toNat (by decide)
    entry.timestamp.toNat_lt rest).1
  simp only [readUncompressedEntry, UncompressedEntry.bytes, List.append_assoc, hfmtId,
    hentrySize, htimestamp, Option.bind_some, Option.map_some]
  simp

theorem Message.entrySize_eq (message : Message formatNumber) :
    message.entry.entrySize.toNat = message.stored.length := by
  have hlt := message.stored_lt
  have hmax : stagingBufferSize / 2 = 524288 := rfl
  exact Nat.mod_eq_of_lt (by omega)

/-- The arguments are compressed as they were stored, in less than twice the space. -/
theorem Message.compress_stored (message : Message formatNumber) (stale : Nat)
    (rest : Bytes) :
    ∃ argData, readUncompressedEntry (message.stored ++ rest) =
        some (message.entry, argData) ∧
      compress message.site.info.numNibbles message.site.info.params stale argData =
        some (packedArguments stale message.params, rest) ∧
      (packedArguments stale message.params).length + 32 ≤ 2 * message.stored.length := by
  obtain ⟨args, hargs, hstored, hlength⟩ := message.stored_eq
  refine ⟨args ++ rest, ?_, ?_, ?_⟩
  · rw [hstored, List.append_assoc, readUncompressedEntry_bytes]
  · rw [← message.map_type, Site.info, ← message.map_fst]
    exact TinyBpfLog.Runtime.compress_stored message.suits hargs stale rest
  · have hpacked := length_packedArguments_le message.suits hargs stale
    omega

theorem Message.printStatement_packed (message : Message formatNumber) (stale : Nat)
    (tail : Bytes) :
    printStatement formatNumber message.site.metadata
        (packedArguments stale message.params ++ tail) =
      some (message.text ++ [13, 10], tail) := by
  rw [Site.metadata, TinyBpfLog.Runtime.printStatement_packed formatNumber
    message.site.readable.plain message.map_fst message.site.readable.nibbles_lt
    message.site.readable.fragments_lt
    (message.map_value ▸ message.render_eq)]
  exact if_pos message.nonneg

/-! ## The body of an extent -/

/-- The bytes of statements of known formats, the first timestamp being relative to `last`. -/
inductive Body (sites : List Site) :
    UInt64 → List (Message formatNumber) → Bytes → Prop
  | nil (last : UInt64) : Body sites last [] []
  | cons {last : UInt64} {message : Message formatNumber}
      {messages : List (Message formatNumber)} {body : Bytes} (stale : Nat)
      (hknown : sites[message.logId.toNat]? = some message.site)
      (hmore : Body sites message.timestamp messages body) :
      Body sites last (message :: messages)
        (compressLogHeader message.entry last ++
          (packedArguments stale message.params ++ body))

theorem compressLogHeader_ne_nil (entry : UncompressedEntry) (last : UInt64) (rest : Bytes) :
    compressLogHeader entry last ++ rest ≠ [] :=
  List.cons_ne_nil _ _

variable {sites : List Site} {last : UInt64} {messages : List (Message formatNumber)}
  {body : Bytes}

theorem Body.length_le (h : Body sites last messages body) :
    messages.length ≤ body.length := by
  induction h with
  | nil last => exact Nat.le_refl _
  | @cons last message messages body stale hknown hmore ih =>
      have hpos := List.length_pos_iff.mpr (compressLogHeader_ne_nil message.entry last [])
      rw [List.append_nil] at hpos
      rw [List.length_cons, List.length_append, List.length_append]
      omega

/-- The decompressor stands behind the header of the first statement. -/
theorem advance_cons (bufferId : UInt32) (message : Message formatNumber) (last : UInt64)
    (rest : Bytes) :
    BufferFragment.advance bufferId (compressLogHeader message.entry last ++ rest) last =
      ⟨bufferId, rest, some (message.logId, message.timestamp)⟩ := by
  rw [BufferFragment.advance, if_neg (compressLogHeader_ne_nil _ _ _),
    decompressLogHeader_compress]
  rfl

theorem Body.nextLog_ne (h : Body sites last messages body) (bufferId : UInt32)
    (hne : body ≠ []) : (BufferFragment.advance bufferId body last).nextLog ≠ none := by
  cases h with
  | nil => exact absurd rfl hne
  | cons stale hknown hmore =>
      rw [advance_cons]
      exact Option.some_ne_none _

theorem decoderOf_getElem? {index : Nat} {site : Site} (h : sites[index]? = some site) :
    ((decoderOf sites).fmtId2metadata[index]?).join = some site.metadata := by
  rw [decoderOf, List.getElem?_map, List.getElem?_map, h]
  rfl

/-- The decompressor prints the statements of the body in their order. -/
theorem Body.drain (h : Body sites last messages body) (bufferId : UInt32) {fuel : Nat}
    (hfuel : messages.length ≤ fuel) :
    Runtime.drain formatNumber (decoderOf sites).fmtId2metadata fuel
        (BufferFragment.advance bufferId body last) =
      some (messages.map (Message.statement bufferId)) := by
  induction h generalizing fuel with
  | nil last => exact drain_done formatNumber rfl fuel
  | @cons last message messages body stale hknown hmore ih =>
      obtain ⟨fuel, rfl⟩ : ∃ n, fuel = n + 1 :=
        Nat.exists_eq_succ_of_ne_zero (Nat.ne_of_gt (Nat.lt_of_lt_of_le
          (Nat.succ_pos _) hfuel))
      have hnext : decompressNextLogStatement formatNumber (decoderOf sites).fmtId2metadata
          (BufferFragment.advance bufferId (compressLogHeader message.entry last ++
            (packedArguments stale message.params ++ body)) last) =
          some (message.statement bufferId,
            BufferFragment.advance bufferId body message.timestamp) := by
        rw [advance_cons, decompressNextLogStatement, Option.bind_some]
        dsimp only
        rw [decoderOf_getElem? hknown, Option.bind_some, message.printStatement_packed]
        rfl
      rw [drain_next formatNumber hnext, ih (Nat.le_of_succ_le_succ hfuel)]
      rfl

theorem readEntry_extent (h : Body sites 0 messages body) (bufferId : UInt32)
    (newPass : Bool) (hsize : body.length ≤ stagingBufferSize) (rest : Bytes) :
    Decoder.readEntry formatNumber (decoderOf sites)
        (extentHeader bufferId newPass body.length ++ body ++ rest) =
      some (messages.map fun message => .statement (message.statement bufferId),
        decoderOf sites, rest) := by
  have hheader := length_extentHeader bufferId newPass 0
  have hread := readBufferExtent_extentHeader bufferId newPass
    (by rw [fragmentSize]; omega) (h.nextLog_ne bufferId) rest
  have hlength : messages.length ≤
      (BufferFragment.advance bufferId body 0).readPos.length + 1 := by
    cases h with
    | nil => exact Nat.zero_le _
    | cons stale hknown hmore =>
        rw [advance_cons, List.length_cons, List.length_append]
        have hmoreLength := hmore.length_le
        omega
  obtain ⟨header, after, hcons, htype⟩ := extentHeader_cons bufferId newPass body.length
  rw [List.append_assoc]
  rw [hcons, List.cons_append] at hread ⊢
  simp only [Decoder.readEntry, htype, hread, Option.bind_some, h.drain bufferId hlength,
    Option.map_some, List.map_map]
  rfl

/-! ## What the compressor writes of the messages -/

/-- The messages as the logging thread stores them, one behind the other. -/
def storedBytes (messages : List (Message formatNumber)) : Bytes :=
  messages.flatMap Message.stored

theorem storedBytes_cons (message : Message formatNumber)
    (messages : List (Message formatNumber)) :
    storedBytes (message :: messages) = message.stored ++ storedBytes messages :=
  List.flatMap_cons

theorem storedBytes_append (messages later : List (Message formatNumber)) :
    storedBytes (messages ++ later) = storedBytes messages ++ storedBytes later :=
  List.flatMap_append

theorem length_storedBytes_cons (message : Message formatNumber)
    (messages : List (Message formatNumber)) :
    (storedBytes (message :: messages)).length =
      message.stored.length + (storedBytes messages).length := by
  rw [storedBytes_cons, List.length_append]

/-- The message's format has the identifier that the message was stored with. -/
def Registered (sites : List Site) (message : Message formatNumber) : Prop :=
  sites[message.logId.toNat]? = some message.site

/-- What the compressor knows of a format is what was registered of it. -/
theorem Registered.known {message : Message formatNumber} (h : Registered sites message)
    {persisted : Nat} {info : StaticLogInfo}
    (hinfo : ((sites.take persisted).map Site.info)[message.logId.toNat]? = some info) :
    (sites.take persisted)[message.logId.toNat]? = some message.site ∧
      info = message.site.info := by
  rw [List.getElem?_map] at hinfo
  obtain ⟨site, hsite, rfl⟩ := Option.map_eq_some_iff.mp hinfo
  obtain ⟨hlt, hget⟩ := List.getElem?_eq_some_iff.mp hsite
  have heq : sites[message.logId.toNat]? = some site := by
    rw [← hget, List.getElem_take]
    exact List.getElem?_eq_getElem _
  obtain rfl : message.site = site := Option.some.inj (h.symm.trans heq)
  exact ⟨hsite, rfl⟩

theorem Message.maxCompressedSize_eq (message : Message formatNumber) :
    message.entry.maxCompressedSize = 2 * message.stored.length + 16 := by
  have hlt := message.stored_lt
  have hmax : stagingBufferSize / 2 = 524288 := rfl
  rw [UncompressedEntry.maxCompressedSize, message.entrySize_eq, Nat.mod_eq_of_lt (by omega)]

/--
The compressor leaves the message: there are not so many bytes of it, its format has
not been persisted, or there may be too little room.
-/
def Stuck (known : List Site) (remaining : Int) (free : Nat)
    (message : Message formatNumber) : Prop :=
  remaining < message.stored.length ∨ known[message.logId.toNat]? = none ∨
    free < 2 * message.stored.length + 16

/-- Whole messages are taken off the front, up to one that the compressor has to leave. -/
structure Taken (known : List Site) (last : UInt64) (remaining : Int) (free : Nat)
    (messages front : List (Message formatNumber)) (body : Bytes) : Prop where
  is_front : front <+: messages
  statements : Body known last front body
  length_le : (storedBytes front).length ≤ remaining
  room : body.length ≤ 2 * (storedBytes front).length
  fits : body.length ≤ free
  stuck : ∀ message back, messages = front ++ message :: back →
    Stuck known (remaining - (storedBytes front).length) (free - body.length) message

theorem Taken.nil {known : List Site} (last : UInt64) {remaining : Int} {free : Nat}
    (hnonneg : 0 ≤ remaining) {messages : List (Message formatNumber)}
    (hstuck : ∀ message back, messages = message :: back →
      Stuck known remaining free message) :
    Taken known last remaining free messages [] [] where
  is_front := List.nil_prefix
  statements := .nil last
  length_le := hnonneg
  room := Nat.zero_le _
  fits := Nat.zero_le _
  stuck := fun message back heq => by
    simpa [storedBytes] using hstuck message back heq

theorem Taken.cons {known : List Site} {last : UInt64} {remaining : Int} {free : Nat}
    {message : Message formatNumber} {front : List (Message formatNumber)} {stale : Nat}
    (hknown : known[message.logId.toNat]? = some message.site)
    (hroom : 2 * message.stored.length + 16 ≤ free)
    (h : Taken known message.timestamp (remaining - message.stored.length)
      (free - ((compressLogHeader message.entry last).length +
        (packedArguments stale message.params).length)) messages front body) :
    Taken known last remaining free (message :: messages) (message :: front)
      (compressLogHeader message.entry last ++
        (packedArguments stale message.params ++ body)) := by
  obtain ⟨argData, -, -, hpacked⟩ := message.compress_stored stale []
  have hheader := length_compressLogHeader_le message.entry last
  have hlength := h.length_le
  have hbody := h.room
  have hfits := h.fits
  have hfront := length_storedBytes_cons message front
  refine ⟨List.cons_prefix_cons.mpr ⟨rfl, h.is_front⟩, .cons _ hknown h.statements, ?_, ?_,
    ?_, ?_⟩
  · omega
  · simp only [List.length_append]
    omega
  · simp only [List.length_append]
    omega
  · intro next back heq
    have hstuck := h.stuck next back (List.cons.inj heq).2
    simp only [Stuck, List.length_append] at hstuck ⊢
    rcases hstuck with hstuck | hstuck | hstuck
    · exact .inl (by omega)
    · exact .inr (.inl hstuck)
    · exact .inr (.inr (by omega))

/-- What the loop takes of the messages, and writes. -/
theorem encodeEntries_messages {persisted : Nat} (stale : Nat → Nat) {size : Nat}
    {remaining : Int} (hregistered : ∀ message ∈ messages, Registered sites message)
    (hnonneg : 0 ≤ remaining) (hremaining : remaining ≤ (storedBytes messages).length)
    (rest written : Bytes) :
    ∃ front body, Taken (sites.take persisted) last remaining (size - written.length)
        messages front body ∧
      encodeEntries ((sites.take persisted).map Site.info) stale size last remaining
        (storedBytes messages ++ rest) written =
        some (remaining - (storedBytes front).length, written ++ body) := by
  have hstop (last : UInt64) {remaining : Int} (hnonneg : 0 ≤ remaining)
      {messages : List (Message formatNumber)} {written : Bytes}
      (hstuck : ∀ message back, messages = message :: back →
        Stuck (sites.take persisted) remaining (size - written.length) message) :
      ∃ front body, Taken (sites.take persisted) last remaining (size - written.length)
          messages front body ∧
        some (remaining, written) =
          some (remaining - (storedBytes front).length, written ++ body) :=
    ⟨[], [], .nil last hnonneg hstuck, by simp [storedBytes]⟩
  induction messages generalizing last remaining written with
  | nil =>
      have hzero : remaining ≤ 0 := hremaining
      rw [encodeEntries, if_pos hzero]
      exact hstop last hnonneg nofun
  | cons message messages ih =>
      obtain ⟨hmessage, hmessages⟩ := List.forall_mem_cons.mp hregistered
      obtain ⟨argData, hread, hcompress, hpacked⟩ :=
        message.compress_stored (stale written.length) (storedBytes messages ++ rest)
      have hleft (hstuck : Stuck (sites.take persisted) remaining (size - written.length)
          message) := @hstop last _ hnonneg (message :: messages) written
        (fun next back heq => (List.cons.inj heq).1 ▸ hstuck)
      rw [storedBytes_cons, List.append_assoc, encodeEntries]
      simp only [hread, message.entrySize_eq, message.maxCompressedSize_eq]
      split
      · exact hleft (.inl (by omega))
      · split
        · next hnone =>
            rw [List.getElem?_map, Option.map_eq_none_iff] at hnone
            exact hleft (.inr (.inl hnone))
        · next info hinfo =>
            obtain ⟨hknown, rfl⟩ := hmessage.known hinfo
            have hsmall := message.stored_lt
            rw [length_storedBytes_cons] at hremaining
            split
            · next hcut => exact hleft (.inl hcut.1)
            · split
              · next hfree => exact hleft (.inr (.inr hfree))
              · obtain ⟨front, body, htaken, hencode⟩ :=
                  @ih message.timestamp (remaining - message.stored.length) hmessages
                    (by omega) (by omega) (written ++ (compressLogHeader message.entry last ++
                      packedArguments (stale written.length) message.params))
                rw [List.length_append, List.length_append, Nat.sub_add_eq] at htaken
                rw [hcompress]
                simp only [List.drop_left]
                refine ⟨message :: front, _, htaken.cons hknown (by omega),
                  hencode.trans (congrArg some (Prod.ext ?_ ?_))⟩
                · rw [length_storedBytes_cons]
                  dsimp only
                  omega
                · simp only [List.append_assoc]

/-- What the compressor writes of the messages is read as their statements. -/
theorem Encoder.encodeLogMsgs_reads (encoder : Encoder)
    (hwritten : encoder.written.length ≤ encoder.size) {persisted : Nat}
    (stale : Nat → Nat) (hregistered : ∀ message ∈ messages, Registered sites message)
    {nbytes : Nat} (hnbytes : nbytes ≤ (storedBytes messages).length)
    (hchunk : nbytes ≤ stagingBufferSize / 2) (rest : Bytes) (bufferId : UInt32)
    (newPass : Bool) :
    ∃ front next more,
      encoder.encodeLogMsgs stale (storedBytes messages ++ rest) nbytes bufferId newPass
        ((sites.take persisted).map Site.info) =
        some (((storedBytes front).length : Int), next) ∧
      front <+: messages ∧ encoder.Appends next more ∧
      Stream.Reads (Decoder.readEntry formatNumber) (decoderOf (sites.take persisted)) more
        (front.map fun message => .statement (message.statement bufferId))
        (decoderOf (sites.take persisted)) ∧
      more.length ≤ 9 + 2 * (storedBytes front).length ∧
      (9 ≤ encoder.free → ∀ message back, messages = front ++ message :: back →
        Stuck (sites.take persisted) (nbytes - (storedBytes front).length) next.free
          message) := by
  obtain ⟨-, hleast, hmost⟩ := length_extentHeader bufferId newPass 0
  rw [Encoder.encodeLogMsgs, Encoder.encodeBufferExtentStart]
  split
  · next hroom =>
      refine ⟨[], encoder, [], rfl, List.nil_prefix, .refl encoder, .nil _, Nat.zero_le _,
        fun hfree => ?_⟩
      rw [if_neg (Nat.not_lt.mpr hfree)] at hroom
      cases hroom
  · next started hroom =>
      split at hroom
      · cases hroom
      · next hfree =>
          cases hroom
          rw [Encoder.free] at hfree
          obtain ⟨front, body, htaken, hencode⟩ :=
            @encodeEntries_messages _ _ 0 messages persisted stale encoder.size nbytes
              hregistered (Int.natCast_nonneg _) (Int.ofNat_le.mpr hnbytes) rest
              (encoder.written ++ extentHeader bufferId newPass 0)
          have hfits := htaken.fits
          have hadd := addToSize_extentHeader encoder.written bufferId newPass body
          have hlength := htaken.length_le
          have hroom := htaken.room
          have hheader := (length_extentHeader bufferId newPass body.length).1
          have hamount :
              (encoder.written ++ (extentHeader bufferId newPass 0 ++ body)).length -
                (encoder.written ++ extentHeader bufferId newPass 0).length =
                  body.length := by
            simp only [List.length_append]
            omega
          rw [hencode]
          simp only [Option.bind_some, hamount, List.append_assoc, hadd, Option.map_some]
          refine ⟨front, _, extentHeader bufferId newPass body.length ++ body,
            congrArg some (Prod.ext ?_ rfl), htaken.is_front, ⟨rfl, rfl, ?_⟩, .single ?_ ?_,
            ?_, fun _ message back heq => ?_⟩
          · dsimp only
            omega
          · intro _
            simp only [List.length_append] at hfits ⊢
            omega
          · obtain ⟨header, after, hcons, -⟩ := extentHeader_cons bufferId newPass body.length
            rw [hcons]
            exact List.cons_ne_nil _ _
          · exact fun rest => readEntry_extent htaken.statements bufferId newPass
              (by rw [stagingBufferSize] at *; omega) rest
          · rw [List.length_append]
            omega
          · have hstuck := htaken.stuck message back heq
            have hleft : ∀ n, n - (encoder.written ++ extentHeader bufferId newPass 0).length -
                body.length = n - (encoder.written ++
                  (extentHeader bufferId newPass body.length ++ body)).length := by
              simp only [List.length_append]
              omega
            rwa [hleft] at hstuck

end Message

end TinyBpfLog.Runtime
