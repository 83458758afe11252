import TinyBpfLog.Runtime.Encoder

/-!
# The dictionary

The compressor writes what is registered of each format that is new, and the
decompressor builds its microcode of that.  The identifier of a format is its place
among those that were written, so that both sides count the same.
-/

namespace TinyBpfLog.Runtime

open Foundation
open Bpftools (lowBytes length_lowBytes)
open Format (Directive Token)

theorem load_lowBytes {size n : Nat} (hsize : size ≤ 8) (h : n < 256 ^ size) (rest : Bytes) :
    load size (lowBytes size n ++ rest) = some (.ofNat n, rest) ∧
      (UInt64.ofNat n).toNat = n := by
  have hpow : 256 ^ size ≤ 256 ^ 8 := Nat.pow_le_pow_right (by decide) hsize
  rw [load_lowBytes_append, Nat.mod_eq_of_lt h]
  exact ⟨rfl, Nat.mod_eq_of_lt (by omega)⟩

/-! ## The dictionary -/

theorem readCompressedLogInfo_bytes {info : StaticLogInfo}
    (hfilename : info.filename.bytes.length + 1 < 2 ^ 16)
    (hformat : info.formatString.bytes.length + 1 < 2 ^ 16) (rest : Bytes) :
    readCompressedLogInfo (info.bytes ++ rest) =
      some (⟨info.severity, info.lineNum, info.filename.bytes, info.formatString.bytes⟩,
        info.bytes.length, rest) := by
  have hseverity := fun rest => (@load_lowBytes 1 info.severity.toNat (by decide)
    info.severity.toNat_lt rest).1
  have hlinenum := fun rest => (@load_lowBytes 4 info.lineNum.toNat (by decide)
    info.lineNum.toNat_lt rest).1
  have hfilenameLength := fun rest => @load_lowBytes 2 _ (by decide) hfilename rest
  have hformatLength := fun rest => @load_lowBytes 2 _ (by decide) hformat rest
  have htake (text : CString) (rest : Bytes) :
      (text.bytes ++ ([0] ++ rest)).take (text.bytes.length + 1) = text.bytes ++ [0] ∧
        (text.bytes ++ ([0] ++ rest)).drop (text.bytes.length + 1) = rest := by
    rw [← List.append_assoc]
    exact ⟨List.take_left' (by simp), List.drop_left' (by simp)⟩
  have hcString (text : CString) : cString (text.bytes ++ [0]) = text.bytes := by
    rw [cString_append_zero, cString_eq_self text.zero_notMem]
  rw [StaticLogInfo.bytes]
  simp only [readCompressedLogInfo, List.append_assoc, hseverity, hlinenum,
    (hfilenameLength _).1, (hformatLength _).1, (hfilenameLength []).2,
    (hformatLength []).2, Option.bind_some]
  rw [if_neg (by simp only [List.length_append, List.length_singleton]; omega)]
  have hlength : 9 + (info.filename.bytes.length + 1) +
      (info.formatString.bytes.length + 1) = (lowBytes 1 info.severity.toNat ++
        (lowBytes 4 info.lineNum.toNat ++ (lowBytes 2 (info.filename.bytes.length + 1) ++
          (lowBytes 2 (info.formatString.bytes.length + 1) ++ (info.filename.bytes ++
            ([0] ++ (info.formatString.bytes ++ [0]))))))).length := by
    simp only [List.length_append, length_lowBytes, List.length_singleton]
    omega
  rw [(htake _ _).1, (htake _ _).2, (htake _ _).1, (htake _ _).2, hcString, hcString, hlength]
  simp

/--
Formats that both sides read in the same way.  The fields of the metadata and of the
dictionary's entries have eight and sixteen bits.
-/
structure Readable (tokens : List Token) (filename : CString) : Prop where
  plain : ∀ token ∈ tokens, Plain token
  nibbles_lt : ((formatParams tokens).countP fun t => !t.isString) < 256
  fragments_lt : (fragmentsOf tokens).length < 256
  filename_lt : filename.bytes.length + 1 < 2 ^ 16
  format_lt : (Format.text tokens).length + 1 < 2 ^ 16

instance (tokens : List Token) (filename : CString) : Decidable (Readable tokens filename) :=
  decidable_of_iff
    ((∀ token ∈ tokens, Plain token) ∧
      ((formatParams tokens).countP fun t => !t.isString) < 256 ∧
      (fragmentsOf tokens).length < 256 ∧ filename.bytes.length + 1 < 2 ^ 16 ∧
      (Format.text tokens).length + 1 < 2 ^ 16)
    ⟨fun ⟨plain, nibbles, fragments, filename, format⟩ =>
        ⟨plain, nibbles, fragments, filename, format⟩,
      fun h => ⟨h.plain, h.nibbles_lt, h.fragments_lt, h.filename_lt, h.format_lt⟩⟩

/-- The text of a format that is made of such tokens. -/
def ReadableFormat (formatString filename : CString) : Prop :=
  ∃ tokens, formatString.bytes = Format.text tokens ∧ Readable tokens filename

theorem Readable.wellFormed {tokens : List Token} {filename : CString}
    (h : Readable tokens filename) : ∀ token ∈ tokens, token.WellFormed :=
  fun token hmem => (h.plain token hmem).wellFormed

instance (formatString filename : CString) :
    Decidable (ReadableFormat formatString filename) :=
  decidable_of_iff
    ((Format.parse formatString.bytes).any fun tokens =>
      formatString.bytes = Format.text tokens ∧ Readable tokens filename) <| by
    simp only [Option.any_eq_true, decide_eq_true_eq, ReadableFormat]
    constructor
    · rintro ⟨tokens, -, hreadable⟩
      exact ⟨tokens, hreadable⟩
    · rintro ⟨tokens, htext, hreadable⟩
      exact ⟨tokens, by rw [htext, Format.parse_text hreadable.wellFormed], htext, hreadable⟩

/-- An invocation of such a format. -/
structure Site where
  tokens : List Token
  filename : CString
  lineNum : UInt32
  severity : UInt8
  argTypes : List ArgType
  readable : Readable tokens filename
  length_argTypes : argTypes.length = (formatParams tokens).length
  deriving DecidableEq

def Site.formatString (site : Site) : CString :=
  ⟨Format.text site.tokens, zero_notMem_text site.readable.plain⟩

def Site.info (site : Site) : StaticLogInfo where
  filename := site.filename
  lineNum := site.lineNum
  severity := site.severity
  formatString := site.formatString
  numNibbles := (formatParams site.tokens).countP fun t => !t.isString
  params := (formatParams site.tokens).zip site.argTypes

theorem Site.map_fst_params (site : Site) :
    site.info.params.map Prod.fst = formatParams site.tokens :=
  List.map_fst_zip (Nat.le_of_eq site.length_argTypes.symm)

theorem Site.map_snd_params (site : Site) :
    site.info.params.map Prod.snd = site.argTypes :=
  List.map_snd_zip (Nat.le_of_eq site.length_argTypes)

def Site.metadata (site : Site) : FormatMetadata :=
  metadataOf site.tokens site.filename.bytes site.lineNum site.severity

/-- What is registered of such a format is what is registered of a site. -/
theorem ReadableFormat.exists_site {filename formatString : CString}
    (h : ReadableFormat formatString filename) {lineNum : UInt32} {severity : UInt8}
    {argTypes : List ArgType} {info : StaticLogInfo}
    (hinfo : staticLogInfo filename lineNum severity formatString argTypes = .ok info) :
    ∃ site : Site, info = site.info := by
  obtain ⟨tokens, htext, hreadable⟩ := h
  rw [staticLogInfo, htext, getNumNibblesNeeded_text hreadable.wellFormed,
    countFmtParams_text hreadable.wellFormed] at hinfo
  dsimp only at hinfo
  split at hinfo
  · cases hinfo
  · next hlength =>
      rw [analyzeFormatString_text hreadable.wellFormed] at hinfo
      refine ⟨⟨tokens, filename, lineNum, severity, argTypes, hreadable,
        (not_not.mp hlength).symm⟩, (Except.ok.inj hinfo).symm.trans ?_⟩
      obtain ⟨bytes, hzero⟩ := formatString
      subst htext
      rfl

theorem pushMetadata_some (metadata : List FormatMetadata) (fm : FormatMetadata) :
    pushMetadata (metadata.map some) (some fm) = (metadata ++ [fm]).map some := by
  rw [pushMetadata, List.map_map, List.map_append]
  rfl

/-- The bytes of the dictionary's entries. -/
def infoBytes (sites : List Site) : Bytes :=
  sites.flatMap fun site => site.info.bytes

theorem readLogInfos_step {newMetadataBytes bytesRead : Nat}
    (hmore : bytesRead < newMetadataBytes) {input rest : Bytes} {cli : CompressedLogInfo}
    {newBytesRead : Nat}
    (hread : readCompressedLogInfo input = some (cli, newBytesRead, rest))
    (metadata : Metadata) :
    readLogInfos newMetadataBytes bytesRead metadata input =
      readLogInfos newMetadataBytes (bytesRead + newBytesRead)
        (pushMetadata metadata
          (createMicroCode cli.formatString cli.filename cli.linenum cli.severity)) rest := by
  rw [readLogInfos, dif_pos hmore]
  split
  · next hnone => rw [hread] at hnone; cases hnone
  · next hsome =>
      rw [hread] at hsome
      cases hsome
      rfl

theorem readLogInfos_infoBytes (sites : List Site) (metadata : List FormatMetadata)
    (bytesRead : Nat) (rest : Bytes) :
    readLogInfos (bytesRead + (infoBytes sites).length) bytesRead (metadata.map some)
        (infoBytes sites ++ rest) =
      some ((metadata ++ sites.map Site.metadata).map some, rest) := by
  induction sites generalizing metadata bytesRead with
  | nil =>
      rw [readLogInfos, dif_neg (by simp [infoBytes]), List.map_nil, List.append_nil]
      rfl
  | cons site sites ih =>
      have hread := @readCompressedLogInfo_bytes site.info site.readable.filename_lt
        site.readable.format_lt (infoBytes sites ++ rest)
      have hpos := readCompressedLogInfo_pos hread
      have hbytes : infoBytes (site :: sites) = site.info.bytes ++ infoBytes sites := rfl
      have hmicroCode : createMicroCode site.info.formatString.bytes site.info.filename.bytes
          site.info.lineNum site.info.severity = some site.metadata := by
        refine (createMicroCode_text site.readable.plain _ _ _).trans ?_
        rw [cString_eq_self site.info.filename.zero_notMem]
        rfl
      rw [hbytes, List.append_assoc, List.length_append, ← Nat.add_assoc,
        readLogInfos_step (by omega) hread]
      dsimp only
      rw [hmicroCode, pushMetadata_some, ih, List.map_cons, List.append_assoc,
        List.singleton_append]

/-- The decompressor once it knows the invocations. -/
def decoderOf (sites : List Site) : Decoder :=
  ⟨(sites.map Site.metadata).map some, true⟩

theorem peekEntryType_add (n : Nat) {type : Nat} (htype : type < 4) :
    (type + 4 * n).toUInt8.toNat % 4 = type := by
  change (type + 4 * n) % 256 % 4 = type
  omega

section Reading

variable (formatNumber : Directive → Option Int → Option Int → UInt64 → Bytes)

/-- A fragment of the dictionary is read as its entries. -/
theorem readEntry_dictionary (known new : List Site) (total : Nat)
    (hsize : 8 + (infoBytes new).length < 2 ^ 30) (rest : Bytes) :
    Decoder.readEntry formatNumber (decoderOf known)
        (dictionaryFragment total (infoBytes new) ++ rest) =
      some ([], decoderOf (known ++ new), rest) := by
  rw [dictionaryFragment, Nat.mod_eq_of_lt hsize]
  have hread : readDictionaryFragment (decoderOf known).fmtId2metadata
      (lowBytes 4 (1 + 4 * (8 + (infoBytes new).length)) ++
        (lowBytes 4 total ++ infoBytes new) ++ rest) =
      some ((decoderOf (known ++ new)).fmtId2metadata, rest) := by
    obtain ⟨hload, hvalue⟩ := @load_lowBytes 4 (1 + 4 * (8 + (infoBytes new).length))
      (by decide) (by omega) (lowBytes 4 total ++ (infoBytes new ++ rest))
    have hcount : (1 + 4 * (8 + (infoBytes new).length)) / 4 = 8 + (infoBytes new).length := by
      omega
    rw [List.append_assoc, List.append_assoc, readDictionaryFragment, hload,
      Option.bind_some]
    dsimp only
    rw [load_lowBytes_append, Option.bind_some]
    dsimp only
    rw [hvalue, hcount, decoderOf, readLogInfos_infoBytes, ← List.map_append]
    rfl
  have htype : peekEntryType (1 + 4 * (8 + (infoBytes new).length)).toUInt8 =
      .logMsgsOrDic := by
    rw [peekEntryType, peekEntryType_add _ (by decide)]
    rfl
  rw [lowBytes, List.cons_append, List.cons_append] at hread ⊢
  simp only [Decoder.readEntry, htype, hread]
  rfl

theorem length_checkpoint (stale : UInt8) (rdtsc unixTime cyclesPerSecond : UInt64) :
    (checkpoint stale rdtsc unixTime cyclesPerSecond).length = 33 := by
  simp only [checkpoint, List.length_append, length_lowBytes]

/-- The entry that a checkpoint starts is one. -/
theorem checkpoint_cons (stale : UInt8) (rdtsc unixTime cyclesPerSecond : UInt64)
    (rest : Bytes) :
    ∃ header after, checkpoint stale rdtsc unixTime cyclesPerSecond ++ rest =
      header :: after ∧ peekEntryType header = .checkpoint := by
  refine ⟨(3 + 4 * (stale.toNat / 4)).toUInt8, _, rfl, ?_⟩
  rw [peekEntryType, peekEntryType_add _ (by decide)]
  rfl

theorem readDictionary_checkpoint (stale : UInt8)
    (rdtsc unixTime cyclesPerSecond : UInt64) (rest : Bytes) :
    readDictionary (checkpoint stale rdtsc unixTime cyclesPerSecond ++ rest) = some rest := by
  have hdrop : (checkpoint stale rdtsc unixTime cyclesPerSecond ++ rest).drop 25 =
      lowBytes 4 0 ++ (lowBytes 4 0 ++ rest) := by
    have hsplit : checkpoint stale rdtsc unixTime cyclesPerSecond ++ rest =
        (lowBytes 1 (3 + 4 * (stale.toNat / 4)) ++ lowBytes 8 rdtsc.toNat ++
          lowBytes 8 unixTime.toNat ++ lowBytes 8 cyclesPerSecond.toNat) ++
        (lowBytes 4 0 ++ (lowBytes 4 0 ++ rest)) := by
      simp only [checkpoint, List.append_assoc]
    rw [hsplit]
    exact List.drop_left' (by simp only [List.length_append, length_lowBytes])
  obtain ⟨header, after, hcons, htype⟩ :=
    checkpoint_cons stale rdtsc unixTime cyclesPerSecond rest
  rw [hcons] at hdrop ⊢
  rw [readDictionary, if_neg (by rw [htype]; exact fun hne => hne rfl), hdrop,
    load_lowBytes_append, Option.bind_some]
  dsimp only
  rw [load_lowBytes_append]
  rfl

/-- With a checkpoint the decompressor forgets what it knows. -/
theorem readEntry_checkpoint (sites : List Site)
    (stale : UInt8) (rdtsc unixTime cyclesPerSecond : UInt64) (rest : Bytes) :
    Decoder.readEntry formatNumber (decoderOf sites)
        (checkpoint stale rdtsc unixTime cyclesPerSecond ++ rest) =
      some ([.newExecution], decoderOf [], rest) := by
  have hread := readDictionary_checkpoint stale rdtsc unixTime cyclesPerSecond rest
  obtain ⟨header, after, hcons, htype⟩ :=
    checkpoint_cons stale rdtsc unixTime cyclesPerSecond rest
  rw [hcons] at hread ⊢
  simp only [Decoder.readEntry, htype, hread]
  rfl

end Reading

/-! ## What the compressor writes of it -/

/-- As many entries are written as there is room for, and each is whole. -/
theorem encodeInfos_sites {free : Nat} {sites : List Site} {count : Nat} {bytes : Bytes}
    (h : encodeInfos free (sites.map Site.info) = (count, bytes)) :
    count ≤ sites.length ∧ bytes = infoBytes (sites.take count) ∧ bytes.length ≤ free := by
  induction sites generalizing free count bytes with
  | nil =>
      cases h
      exact ⟨Nat.zero_le _, rfl, Nat.zero_le _⟩
  | cons site sites ih =>
      rw [List.map_cons, encodeInfos] at h
      split at h
      · cases h
        exact ⟨Nat.zero_le _, rfl, Nat.zero_le _⟩
      · next hroom =>
          obtain ⟨hcount, hbytes, hlength⟩ := @ih (free - site.info.bytes.length) _ _ rfl
          cases h
          refine ⟨Nat.succ_le_succ hcount, ?_, ?_⟩
          · rw [hbytes]
            rfl
          · rw [List.length_append]
            omega

/-- The encoder has put `more` behind what it had written, within its buffer. -/
structure Encoder.Appends (encoder next : Encoder) (more : Bytes) : Prop where
  written_eq : next.written = encoder.written ++ more
  size_eq : next.size = encoder.size
  fits : encoder.written.length ≤ encoder.size → next.written.length ≤ next.size

theorem Encoder.Appends.refl (encoder : Encoder) : encoder.Appends encoder [] where
  written_eq := (List.append_nil _).symm
  size_eq := rfl
  fits := id

/-- The decompressor gets to know the entries that the compressor counts as written. -/
theorem Encoder.encodeNewDictionaryEntries_reads
    (formatNumber : Directive → Option Int → Option Int → UInt64 → Bytes)
    (encoder : Encoder) (hsize : encoder.size < 2 ^ 30) {sites : List Site}
    {currentPosition : Nat} (hposition : currentPosition ≤ sites.length)
    {next : Encoder} {position : Nat}
    (hencode : encoder.encodeNewDictionaryEntries currentPosition (sites.map Site.info) =
      (next, position)) :
    currentPosition ≤ position ∧ position ≤ sites.length ∧
      ∃ more, encoder.Appends next more ∧
        Stream.Reads (Decoder.readEntry formatNumber) (decoderOf (sites.take currentPosition))
          more [] (decoderOf (sites.take position)) := by
  rw [Encoder.encodeNewDictionaryEntries] at hencode
  split at hencode
  · cases hencode
    exact ⟨Nat.le_refl _, hposition, [], .refl encoder, .nil _⟩
  · next hroom =>
      rw [← List.map_drop] at hencode
      obtain ⟨⟨count, bytes⟩, hinfos⟩ : ∃ infos, encodeInfos (encoder.free - 8)
          ((sites.drop currentPosition).map Site.info) = infos := ⟨_, rfl⟩
      obtain ⟨hcount, rfl, hlength⟩ := encodeInfos_sites hinfos
      rw [hinfos] at hencode
      cases hencode
      rw [Encoder.free] at hroom hlength
      rw [List.length_drop] at hcount
      refine ⟨Nat.le_add_right _ _, by omega, _, ⟨rfl, rfl, ?_⟩, .single ?_ ?_⟩
      · intro _
        simp only [dictionaryFragment, List.length_append, length_lowBytes]
        omega
      · exact List.ne_nil_of_length_pos (by simp [dictionaryFragment, length_lowBytes])
      · intro rest
        rw [readEntry_dictionary formatNumber _ _ _ (by omega), ← List.take_add]

end TinyBpfLog.Runtime
