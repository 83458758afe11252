import TinyBpfLog.Runtime.Arguments
import TinyBpfLog.Runtime.MicroCode

/-!
# Statements

The decompressor prints a statement fragment by fragment: it fetches the dynamic
width, the dynamic precision and the argument of each, and hands them to `fprintf`.
Of a format that is made of tokens this prints what `printf` would have printed
where the statement was logged, unless a width or a precision is negative, which
the decompressor takes for one that is not there.
-/

namespace TinyBpfLog.Runtime

open Foundation
open Format (Amount Datum Directive Kind Token Value Width)

/-! ## Fetching -/

/-- The type that `getNext` is instantiated with. -/
def FormatType.argType : FormatType → Option ArgType
  | .none => Option.none
  | .unsignedChar => some .uint8
  | .unsignedShortInt => some .uint16
  | .unsignedInt => some .uint32
  | .unsignedLongInt => some .uint64
  | .unsignedLongLongInt => some .uint64
  | .uintmaxT => some .uint64
  | .sizeT => some .uint64
  | .wintT => some .uint32
  | .signedChar => some .int8
  | .shortInt => some .int16
  | .int => some .int32
  | .longInt => some .int64
  | .longLongInt => some .int64
  | .intmaxT => some .int64
  | .ptrdiffT => some .int64
  | .double => some .double
  | .longDouble => Option.none
  | .constVoidPtr => some .pointer
  | .constCharPtr => Option.none
  | .constWcharPtr => Option.none

/-- Where a statement is read: its numbers and its strings, from the next ones on. -/
structure Cursor where
  nb : Nibbler
  nextStringArg : Bytes
  deriving DecidableEq, Repr

/-- `nb.getNext<int>()` if the fragment has the amount, and -1 if it has not. -/
def Cursor.getAmount (cursor : Cursor) (isDynamic : Bool) : Option (Int32 × Cursor) :=
  if isDynamic then
    cursor.nb.getNext.map fun (bits, nb) =>
      (bits.toUInt32.toInt32, { cursor with nb := nb })
  else some (-1, cursor)

/-- The argument as it is passed on; a `double` that was stored as a `float` is left out. -/
def Cursor.getNumber (cursor : Cursor) (type : ArgType) : Option (Value × Cursor) :=
  if type = .double ∧ cursor.nb.nibble ≠ some 8 then none
  else
    cursor.nb.getNext.map fun (bits, nb) =>
      ((Arg.scalar type bits).value, { cursor with nb := nb })

/-- The string at the cursor; where it stands in memory is not known. -/
def Cursor.getString (cursor : Cursor) : Option (Value × Cursor) :=
  if (0 : UInt8) ∈ cursor.nextStringArg then
    let text := cursor.nextStringArg.takeWhile (· ≠ 0)
    some (.string 0 text,
      { cursor with nextStringArg := cursor.nextStringArg.drop (text.length + 1) })
  else none

def Cursor.getArgument (cursor : Cursor) (type : FormatType) : Option (Value × Cursor) :=
  if type = .constCharPtr then cursor.getString
  else type.argType.bind cursor.getNumber

/-! ## Printing -/

/-- An `int` among the arguments of `fprintf`. -/
def intValue (n : Int32) : Value :=
  (Arg.scalar .int32 n.toUInt32.toUInt64).value

/-- The arguments that `printSingleArg` puts behind the format. -/
def printSingleArg (arg : Value) (width precision : Int32) : List Value :=
  if width < 0 ∧ precision < 0 then [arg]
  else if 0 ≤ width ∧ precision < 0 then [intValue width, arg]
  else if 0 ≤ width ∧ 0 ≤ precision then [intValue width, intValue precision, arg]
  else [intValue precision, arg]

section Printing

-- how the library prints a number, or a real number that is given by its bits
variable (formatNumber : Directive → Option Int → Option Int → UInt64 → Bytes)

def printFragment (fragment : PrintFragment) (cursor : Cursor) :
    Option (Bytes × Cursor) :=
  (cursor.getAmount fragment.hasDynamicWidth).bind fun (width, cursor) =>
    (cursor.getAmount fragment.hasDynamicPrecision).bind fun (precision, cursor) =>
      if fragment.argType = .none then
        (Format.fprintf formatNumber fragment.formatFragment []).map (·, cursor)
      else
        (cursor.getArgument fragment.argType).bind fun (arg, cursor) =>
          (Format.fprintf formatNumber fragment.formatFragment
            (printSingleArg arg width precision)).map (·, cursor)

def printFragments : List PrintFragment → Cursor → Option (Bytes × Cursor)
  | [], cursor => some ([], cursor)
  | fragment :: fragments, cursor =>
      (printFragment formatNumber fragment cursor).bind fun (shown, cursor) =>
        (printFragments fragments cursor).map fun (later, cursor) =>
          (shown ++ later, cursor)

/-- What is printed of the statement at `readPos`, and the bytes behind it. -/
def printStatement (metadata : FormatMetadata) (readPos : Bytes) :
    Option (Bytes × Bytes) :=
  (Nibbler.new readPos metadata.numNibbles).bind fun nb =>
    (printFragments formatNumber (metadata.fragments.take metadata.numPrintFragments)
      ⟨nb, nb.endOfValues⟩).map fun (shown, cursor) =>
        (shown ++ [13, 10], cursor.nextStringArg)

end Printing

/-! ## Widths and precisions -/

/-- An amount that is not negative, which is the only one that is passed on. -/
def passed (n : Int32) : List Value :=
  if n < 0 then [] else [intValue n]

theorem printSingleArg_eq (arg : Value) (width precision : Int32) :
    printSingleArg arg width precision = passed width ++ (passed precision ++ [arg]) := by
  have hnot (n : Int32) : 0 ≤ n ↔ ¬ n < 0 := Int32.not_lt.symm
  rw [printSingleArg]
  by_cases hwidth : width < 0 <;> by_cases hprecision : precision < 0 <;>
    simp [passed, hnot, hwidth, hprecision]

theorem toNat_of_nonneg {n : UInt32} (h : 0 ≤ n.toInt32.toInt) :
    n.toNat = n.toInt32.toInt.toNat := by
  have hle : 0 ≤ n.toInt32 := Int32.le_iff_toInt_le.mpr h
  rw [Int32.toNat_toInt, ← Int32.toNat_toUInt32_of_le hle, UInt32.toUInt32_toInt32]

/-- What the logging thread takes the precision of a string to be. -/
theorem toNat_precisionAfter {arg : Arg} {n : Int} (h : arg.value.int? = some n)
    (hn : 0 ≤ n) (previousPrecision : UInt64) :
    (precisionAfter previousPrecision .dynamicPrecision arg).toNat = n.toNat := by
  have hunsigned {x : UInt32} {y : UInt64} (hx : 0 ≤ x.toInt32.toInt)
      (hy : y.toNat = x.toNat) : y.toNat = x.toInt32.toInt.toNat :=
    hy.trans (toNat_of_nonneg hx)
  have hsigned {x : Int32} {y : Int64} (hx : 0 ≤ x.toInt) (hy : y.toInt = x.toInt) :
      y.toUInt64.toNat = x.toInt.toNat := by
    rw [Int64.toNat_toUInt64_of_le (Int64.le_iff_toInt_le.mpr (hy ▸ hx)),
      ← Int64.toNat_toInt, hy]
  cases arg with
  | string address text => cases h
  | scalar type bits =>
      cases type with
      | uint8 => cases h; exact hunsigned hn (by simp [precisionAfter, asUint64]; omega)
      | uint16 => cases h; exact hunsigned hn (by simp [precisionAfter, asUint64]; omega)
      | uint32 => cases h; exact hunsigned hn (by simp [precisionAfter, asUint64])
      | int8 => cases h; exact hsigned hn (by simp)
      | int16 => cases h; exact hsigned hn (by simp)
      | int32 => cases h; exact hsigned hn (by simp)
      | uint64 => cases h
      | int64 => cases h
      | double => cases h
      | pointer => cases h

/-- A number that is read back agrees with the `int` that was passed. -/
theorem int_of_agrees {bits : UInt64} {value : Value} (h : Agrees bits value) {n : Int}
    (hn : value.int? = some n) : bits.toUInt32.toInt32.toInt = n := by
  cases value with
  | real given => cases hn
  | string address text => cases hn
  | number width given =>
      cases width with
      | word =>
          cases hn
          have hword : bits.toUInt32 = given.toUInt32 := UInt32.toUInt64_inj.mp h
          rw [hword]
      | byte => cases hn
      | half => cases hn
      | long => cases hn

theorem int?_intValue (n : Int32) : (intValue n).int? = some n.toInt := by
  rw [intValue, Arg.value, Value.int?, UInt32.toUInt32_toUInt64]
  rfl

/-- No width and no precision among the arguments is negative. -/
def Nonneg (params : List (ParamType × Arg)) : Prop :=
  ∀ param ∈ params, param.1 = .dynamicWidth ∨ param.1 = .dynamicPrecision →
    0 ≤ param.2.value.int?.getD 0

instance (params : List (ParamType × Arg)) : Decidable (Nonneg params) :=
  inferInstanceAs (Decidable (∀ param ∈ params, _))

/-! ## Cursors -/

/-- What was stored of the parameters is ahead of the cursor, and then `rest`. -/
structure Cursor.At (cursor : Cursor) (previousPrecision : UInt64)
    (params : List (ParamType × Arg)) (rest : Bytes) : Prop where
  numbers : ∃ strings, cursor.nb.At (numbersOf params) strings
  strings : cursor.nextStringArg = terminated (textsOf previousPrecision params) ++ rest

section Cursor

variable {cursor : Cursor} {previousPrecision : UInt64} {params : List (ParamType × Arg)}
  {rest : Bytes}

theorem Cursor.At.getNext {paramType : ParamType} {arg : Arg}
    (h : cursor.At previousPrecision ((paramType, arg) :: params) rest)
    (hstring : ¬ paramType.isString) :
    cursor.nb.nibble = some (packArgument arg.type arg.bits).nibble ∧
    ∃ bits nb, cursor.nb.getNext = some (bits, nb) ∧ Agrees bits arg.value ∧
      Cursor.At { cursor with nb := nb } (precisionAfter previousPrecision paramType arg)
        params rest := by
  obtain ⟨strings, hnumbers⟩ := h.numbers
  rw [numbersOf, if_neg hstring] at hnumbers
  obtain ⟨bits, hreads, hagrees⟩ := reads_packArgument arg
  obtain ⟨nb, hnext, hnb⟩ := hnumbers.getNext hreads
  refine ⟨hnumbers.nibble_eq hreads.nibble_lt, bits, nb, hnext, hagrees, ⟨strings, hnb⟩, ?_⟩
  have htexts := h.strings
  cases arg with
  | scalar type bits => exact htexts
  | string address text => rwa [textsOf, if_neg hstring] at htexts

/-- An amount stands for `n`, and takes one argument or none. -/
inductive AmountTaken (amount : Option Amount) (paramType : ParamType) (n : Option Int)
    (params later : List (ParamType × Arg)) : Prop where
  | star (arg : Arg) {m : Int} (hm : arg.value.int? = some m) (hamount : amount = some .star)
      (hn : n = some m) (hparams : params = (paramType, arg) :: later)
  | none (hamount : amount ≠ some .star) (hparams : params = later)
      (hgiven : ∀ given, Format.takeValue amount given = some (n, given))

theorem AmountTaken.suits {amount : Option Amount} {paramType : ParamType} {n : Option Int}
    {later : List (ParamType × Arg)} (h : AmountTaken amount paramType n params later)
    (hstring : ¬ paramType.isString) (hlater : ∀ param ∈ later, Suits param) :
    ∀ param ∈ params, Suits param := by
  cases h with
  | none _ hparams _ => rwa [hparams]
  | star arg _ _ _ hparams =>
      rw [hparams]
      exact List.forall_mem_cons.mpr ⟨fun hisString => absurd hisString hstring, hlater⟩

theorem params_cons {paramType : ParamType} {types : List ParamType} {value : Value}
    {values : List Value} (htypes : params.map Prod.fst = [paramType] ++ types)
    (hvalues : params.map (fun param => param.2.value) = value :: values) :
    ∃ arg later, params = (paramType, arg) :: later ∧ later.map Prod.fst = types ∧
      arg.value = value ∧
      later.map (fun param : ParamType × Arg => param.2.value) = values := by
  cases params with
  | nil => cases htypes
  | cons param later =>
      obtain ⟨rfl, hlater⟩ := List.cons.inj htypes
      obtain ⟨rfl, hlaterValues⟩ := List.cons.inj hvalues
      exact ⟨param.2, later, rfl, hlater, rfl, hlaterValues⟩

theorem string_of_read {arg : Arg} {datum : Datum}
    (h : Kind.string.read arg.value = some datum) :
    ∃ address text, arg = .string address text ∧ datum = .text text.bytes := by
  cases arg with
  | scalar type bits => cases type <;> cases h
  | string address text => cases h; exact ⟨address, text, rfl, rfl⟩

theorem takeValue_params {amount : Option Amount} {paramType : ParamType}
    {types : List ParamType} {values : List Value} {n : Option Int}
    (htypes : params.map Prod.fst =
      (if amount = some .star then [paramType] else []) ++ types)
    (hvalue : Format.takeValue amount (params.map fun param => param.2.value) =
      some (n, values)) :
    ∃ later, later.map Prod.fst = types ∧
      later.map (fun param : ParamType × Arg => param.2.value) = values ∧
      AmountTaken amount paramType n params later := by
  by_cases hstar : amount = some .star
  · subst hstar
    rw [if_pos rfl, List.singleton_append] at htypes
    cases params with
    | nil => cases htypes
    | cons param later =>
        obtain ⟨type, arg⟩ := param
        obtain ⟨rfl, hlater⟩ := List.cons.inj htypes
        obtain ⟨m, hm, heq⟩ := Option.map_eq_some_iff.mp hvalue
        cases heq
        exact ⟨later, hlater, rfl, .star arg hm rfl rfl rfl⟩
  · rw [if_neg hstar, List.nil_append] at htypes
    obtain ⟨rfl, hgiven⟩ := Format.takeValue_of_ne hstar hvalue
    exact ⟨params, htypes, rfl, .none hstar rfl hgiven⟩

/-- What reading an amount comes to: `n` was passed for it, and `fetched` is read. -/
structure AmountRead (amount : Option Amount) (paramType : ParamType) (n : Option Int)
    (params : List (ParamType × Arg)) (fetched : Int32) (later : List (ParamType × Arg))
    (precision : UInt64) : Prop where
  nonneg : Nonneg params ↔ (amount = some .star → 0 ≤ fetched) ∧ Nonneg later
  passed_eq : (amount = some .star → 0 ≤ fetched) →
    ∀ values, Format.takeValue amount (passed fetched ++ values) = some (n, values)
  length_passed : (passed fetched).length ≤ Format.amountArity amount
  length_passed_lt : ¬ (amount = some .star → 0 ≤ fetched) →
    (passed fetched).length < Format.amountArity amount
  precision_eq : paramType = .dynamicPrecision → amount = some .star → 0 ≤ fetched →
    n = some (precision.toNat : Int)

theorem Cursor.At.getAmount {amount : Option Amount} {paramType : ParamType}
    (hdynamic : paramType = .dynamicWidth ∨ paramType = .dynamicPrecision)
    {types : List ParamType} {values : List Value} {n : Option Int}
    (h : cursor.At previousPrecision params rest)
    (htypes : params.map Prod.fst =
      (if amount = some .star then [paramType] else []) ++ types)
    (hvalue : Format.takeValue amount (params.map fun param => param.2.value) =
      some (n, values)) :
    ∃ fetched later precision next,
      cursor.getAmount (amount = some .star) = some (fetched, next) ∧
      later.map Prod.fst = types ∧
      later.map (fun param : ParamType × Arg => param.2.value) = values ∧
      next.At precision later rest ∧
      AmountRead amount paramType n params fetched later precision := by
  obtain ⟨later, hlater, hvalues, ⟨arg, hm, rfl, rfl, rfl⟩ | ⟨hstar, rfl, hgiven⟩⟩ :=
    takeValue_params htypes hvalue
  · have hstring : ¬ paramType.isString := by
      rcases hdynamic with rfl | rfl <;> simp [ParamType.isString]
    obtain ⟨-, bits, nb, hnext, hagrees, hat⟩ := h.getNext hstring
    have hint := int_of_agrees hagrees hm
    refine ⟨bits.toUInt32.toInt32, later, _, _, ?_, hlater, hvalues, hat, ?_⟩
    · simp [Cursor.getAmount, hnext]
    · exact
        { nonneg := by
            rw [Nonneg, List.forall_mem_cons, hm, Option.getD_some, ← hint,
              ← Nonneg, forall_prop_of_true hdynamic, forall_prop_of_true rfl,
              Int32.le_iff_toInt_le]
            rfl
          passed_eq := fun hnonneg values => by
            rw [passed, if_neg (Int32.not_lt.mpr (hnonneg rfl)), List.singleton_append,
              Format.takeValue, int?_intValue, hint]
            rfl
          length_passed := by rw [passed]; split <;> simp [Format.amountArity]
          length_passed_lt := fun hneg => by
            rw [forall_prop_of_true rfl, Int32.not_le] at hneg
            rw [passed, if_pos hneg]
            decide
          precision_eq := by
            rintro rfl - hnonneg
            rw [Int32.le_iff_toInt_le, hint] at hnonneg
            rw [toNat_precisionAfter hm hnonneg, Int.toNat_of_nonneg hnonneg] }
  · refine ⟨-1, params, previousPrecision, cursor, ?_, hlater, hvalues, h, ?_⟩
    · simp [Cursor.getAmount, hstar]
    · exact
        { nonneg := by simp [hstar]
          passed_eq := fun _ => hgiven
          length_passed := Nat.zero_le _
          length_passed_lt := fun hneg => absurd (fun heq => absurd heq hstar) hneg
          precision_eq := fun _ heq => absurd heq hstar }

/-! ### Arguments -/

theorem setWidth_signExtend {w v : Nat} (x : BitVec w) (h : w ≤ v) :
    (x.signExtend v).setWidth w = x := by
  ext i hi
  have hiv : i < v := Nat.lt_of_lt_of_le hi h
  simp [BitVec.getElem_signExtend, hi, hiv]

/-- How `printf` reads an argument of the type. -/
def ArgType.kind : ArgType → Kind
  | .uint8 => .number .byte
  | .uint16 => .number .half
  | .uint32 => .number .word
  | .uint64 => .number .long
  | .int8 => .number .byte
  | .int16 => .number .half
  | .int32 => .number .word
  | .int64 => .number .long
  | .double => .real
  | .pointer => .number .long

/-- The small signed types keep their bits when they are promoted. -/
theorem truncate_promoted (bits : UInt64) :
    Width.byte.truncate bits.toUInt8.toInt8.toInt32.toUInt32.toUInt64 =
      Width.byte.truncate bits ∧
    Width.half.truncate bits.toUInt16.toInt16.toInt32.toUInt32.toUInt64 =
      Width.half.truncate bits := by
  constructor
  · refine congrArg UInt8.toUInt64 (UInt8.toBitVec_inj.mp ?_)
    simp [setWidth_signExtend]
  · refine congrArg UInt16.toUInt64 (UInt16.toBitVec_inj.mp ?_)
    simp [setWidth_signExtend]

theorem read_scalar {type : ArgType} {width : Width} (h : type.kind = .number width)
    (bits : UInt64) : (Kind.number width).read (Arg.scalar type bits).value =
      some (.bits (width.truncate bits)) := by
  have hle : Width.byte.bits ≤ Width.word.bits ∧ Width.half.bits ≤ Width.word.bits := by
    decide
  cases type with
  | double => cases h
  | int8 => cases h; rw [Arg.value, Kind.read, if_pos hle.1, (truncate_promoted bits).1]
  | int16 => cases h; rw [Arg.value, Kind.read, if_pos hle.2, (truncate_promoted bits).2]
  | uint8 =>
      cases h
      exact congrArg (some ∘ Datum.bits ∘ UInt8.toUInt64) (UInt8.toUInt8_toUInt64 _)
  | uint16 =>
      cases h
      exact congrArg (some ∘ Datum.bits ∘ UInt16.toUInt64) (UInt16.toUInt16_toUInt64 _)
  | uint32 => cases h; rfl
  | uint64 => cases h; rfl
  | int32 => cases h; rfl
  | int64 => cases h; rfl
  | pointer => cases h; rfl

def FormatType.kind (type : FormatType) : Option Kind :=
  if type = .constCharPtr then some .string else type.argType.map ArgType.kind

/-- Where a directive is supported, its argument is fetched as `printf` reads it. -/
theorem getFormatType_kind : ∀ length ∈ Format.lengths, ∀ specifier ∈ Format.specifiers,
    ∀ kind, (⟨[], none, none, length, specifier⟩ : Directive).kind = some kind →
      (getFormatType length specifier).bind FormatType.kind = some kind := by
  decide +kernel

theorem kind_string {dir : Directive} {kind : Kind} (h : dir.kind = some kind) :
    kind = .string ↔ dir.specifier = 115 := by
  rw [Directive.kind] at h
  by_cases hspecifier : dir.specifier = 115
  · rw [if_pos hspecifier] at h
    split at h
    · cases h
      exact iff_of_true rfl hspecifier
    · cases h
  · rw [if_neg hspecifier] at h
    refine iff_of_false ?_ hspecifier
    rintro rfl
    repeat' split at h
    all_goals simp at h

/-- The precision of a string, if it is the last amount that was read. -/
def precisionOf (dir : Directive) (previousPrecision : UInt64) : Option Int :=
  match dir.precision with
  | none => none
  | some (.digits text) => some (Format.digitsValue text)
  | some .star => some previousPrecision.toNat

/-- A string that was cut when it was stored is printed as the whole one. -/
theorem formatString_cut {dir : Directive} (hspecifier : dir.specifier = 115)
    (width : Option Int) (previousPrecision : UInt64) (text : CString) :
    dir.formatString width (precisionOf dir previousPrecision)
        (text.bytes.take (stringBytes previousPrecision (valueType dir) text)) =
      dir.formatString width (precisionOf dir previousPrecision) text.bytes := by
  have hcut (precision : Nat) :
      (text.bytes.take (min text.bytes.length precision)).take precision =
        text.bytes.take precision := by
    rw [List.take_take, List.take_eq_take_iff]
    omega
  rw [valueType, if_neg (not_not.mpr hspecifier), precisionOf]
  cases dir.precision with
  | none => rw [stringBytes.eq_3, List.take_length] <;> simp
  | some amount =>
      cases amount with
      | star =>
          simp only [stringBytes, Directive.formatString, Int.natCast_nonneg, if_true,
            Int.toNat_natCast, hcut]
      | digits digits =>
          simp only [stringBytes, Directive.formatString, Int.natCast_nonneg, if_true,
            Int.toNat_natCast, hcut]

theorem Cursor.getString_terminated {text : Bytes} (h : (0 : UInt8) ∉ text)
    (later : Bytes) (nb : Nibbler) :
    Cursor.getString ⟨nb, text ++ [0] ++ later⟩ = some (.string 0 text, ⟨nb, later⟩) := by
  have htext : ∀ byte ∈ text, decide (byte ≠ 0) := by
    intro byte hmem
    rw [decide_eq_true_eq]
    rintro rfl
    exact h hmem
  have htake : (text ++ [0] ++ later).takeWhile (· ≠ 0) = text := by
    rw [List.append_assoc, List.takeWhile_append_of_pos htext]
    simp
  have hdrop : (text ++ [0] ++ later).drop (text.length + 1) = later :=
    List.drop_left' (by simp)
  rw [Cursor.getString, if_pos (by simp)]
  simp only [htake, hdrop]

theorem valueType_ne (dir : Directive) :
    valueType dir ≠ .dynamicWidth ∧ valueType dir ≠ .dynamicPrecision := by
  rw [valueType]
  repeat' split
  all_goals simp

theorem precisionAfter_of_ne {paramType : ParamType} (h : paramType ≠ .dynamicPrecision)
    (previousPrecision : UInt64) (arg : Arg) :
    precisionAfter previousPrecision paramType arg = previousPrecision := by
  cases arg with
  | string address text => rfl
  | scalar type bits => cases type <;> simp [precisionAfter, h]

theorem read_agrees {width : Width} {bits : UInt64} {value : Value} {datum : Datum}
    (h : Agrees bits value) (hread : (Kind.number width).read value = some datum) :
    datum = .bits (width.truncate bits) := by
  cases value with
  | real given => cases hread
  | string address text => cases hread; rw [show bits = address from h]
  | number given passed =>
      rw [Kind.read] at hread
      split at hread
      · next hle =>
          cases hread
          rw [Width.truncate_of_le hle h]
      · cases hread

theorem Cursor.At.getArgument {dir : Directive} (hwellFormed : dir.WellFormed)
    {type : FormatType} (htype : getFormatType dir.length dir.specifier = some type)
    {arg : Arg} (h : cursor.At previousPrecision ((valueType dir, arg) :: params) rest)
    {kind : Kind} (hkind : dir.kind = some kind) {datum : Datum}
    (hread : kind.read arg.value = some datum)
    (formatNumber : Directive → Option Int → Option Int → UInt64 → Bytes) :
    ∃ value next shown, cursor.getArgument type = some (value, next) ∧
      next.At previousPrecision params rest ∧ kind.read value = some shown ∧
      ∀ width, dir.format formatNumber width (precisionOf dir previousPrecision) shown =
        dir.format formatNumber width (precisionOf dir previousPrecision) datum := by
  have htypeKind : type.kind = some kind := by
    have hdecoded := getFormatType_kind _ hwellFormed.length _ hwellFormed.specifier kind
    rw [htype] at hdecoded
    exact hdecoded hkind
  have hisString : (valueType dir).isString = decide (kind = .string) := by
    rw [isString_valueType, decide_eq_decide]
    exact (kind_string hkind).symm
  rw [FormatType.kind] at htypeKind
  rw [Cursor.getArgument]
  by_cases hstring : type = .constCharPtr
  · rw [if_pos hstring] at htypeKind ⊢
    cases htypeKind
    obtain ⟨address, text, rfl, rfl⟩ := string_of_read hread
    obtain ⟨strings, hnumbers⟩ := h.numbers
    have htexts := h.strings
    simp only [decide_true] at hisString
    rw [numbersOf, if_pos hisString] at hnumbers
    rw [textsOf, if_pos hisString, terminated, List.flatMap_cons, ← terminated,
      List.append_assoc, precisionAfter_of_ne (valueType_ne dir).2] at htexts
    have hzero : (0 : UInt8) ∉
        text.bytes.take (stringBytes previousPrecision (valueType dir) text) :=
      fun hmem => text.zero_notMem (List.mem_of_mem_take hmem)
    have hget := Cursor.getString_terminated hzero
      (terminated (textsOf previousPrecision params) ++ rest) cursor.nb
    rw [← htexts] at hget
    exact ⟨_, _, _, hget, ⟨⟨strings, hnumbers⟩, rfl⟩, rfl, fun width =>
      formatString_cut ((kind_string hkind).mp rfl) width previousPrecision text⟩
  · rw [if_neg hstring] at htypeKind ⊢
    obtain ⟨argType, hargType, rfl⟩ := Option.map_eq_some_iff.mp htypeKind
    rw [hargType, Option.bind_some, Cursor.getNumber]
    have hnumber : argType.kind ≠ .string := by cases argType <;> simp [ArgType.kind]
    rw [decide_eq_false hnumber] at hisString
    obtain ⟨hnibble, bits, nb, hnext, hagrees, hat⟩ :=
      h.getNext (Bool.not_eq_true _ ▸ hisString)
    rw [precisionAfter_of_ne (valueType_ne dir).2] at hat
    by_cases hdouble : argType = .double
    · subst hdouble
      obtain ⟨given, rfl, rfl⟩ :
          ∃ given, arg = .scalar .double given ∧ datum = .bits given := by
        cases arg with
        | string address text => cases hread
        | scalar type given => cases type <;> cases hread; exact ⟨given, rfl, rfl⟩
      obtain rfl : bits = given := hagrees
      rw [hnibble, if_neg (by simp [packArgument, Arg.type]), hnext]
      exact ⟨_, _, _, rfl, hat, rfl, fun width => rfl⟩
    · obtain ⟨width, hwidth⟩ : ∃ width, argType.kind = .number width := by
        cases argType <;> first | exact ⟨_, rfl⟩ | exact absurd rfl hdouble
      rw [hwidth] at hread ⊢
      obtain rfl := read_agrees hagrees hread
      rw [if_neg fun hboth => hdouble hboth.1, hnext]
      exact ⟨_, _, _, rfl, hat, read_scalar hwidth bits, fun width => rfl⟩

/-! ### Fragments -/

variable (formatNumber : Directive → Option Int → Option Int → UInt64 → Bytes)

/--
A fragment is printed as `printf` prints its tokens if neither amount is negative.
Otherwise there are fewer arguments than the fragment asks for.
-/
theorem Cursor.At.printFragment {pending trailing : List Token} {dir : Directive}
    (hsilent : (∀ token ∈ pending, token.Silent) ∧ ∀ token ∈ trailing, token.Silent)
    (hplain : ∀ token ∈ pending ++ .directive dir :: trailing, Plain token)
    {types : List ParamType} {values : List Value} {shown : Bytes}
    (h : cursor.At previousPrecision params rest)
    (htypes : params.map Prod.fst = directiveParams dir ++ types)
    (hrender : dir.render formatNumber (params.map fun param => param.2.value) =
      some (shown, values))
    {fragment : PrintFragment} (hfragment : fragment = { fragmentOf (pending, dir) with
      formatFragment := Format.text (pending ++ .directive dir :: trailing) }) :
    ∃ later, later.map Prod.fst = types ∧
      later.map (fun param : ParamType × Arg => param.2.value) = values ∧
      ((∃ precision next, TinyBpfLog.Runtime.printFragment formatNumber fragment cursor =
          some (pending.flatMap Token.shown ++
            (shown ++ trailing.flatMap Token.shown), next) ∧
          next.At precision later rest ∧ (Nonneg params ↔ Nonneg later)) ∨
        (TinyBpfLog.Runtime.printFragment formatNumber fragment cursor = none ∧
          ¬ Nonneg params)) := by
  have hdir := hplain (.directive dir) (by simp)
  have hwellFormed : dir.WellFormed := hdir.wellFormed
  obtain ⟨type, htype⟩ := Option.isSome_iff_exists.mp (hdir.supported dir rfl)
  obtain ⟨w, _, p, _, kind, datum, hwidth, hprecision, hkind, hread, rfl⟩ :=
    dir.render_eq_some formatNumber hrender
  rw [directiveParams, List.append_assoc, List.append_assoc] at htypes
  obtain ⟨width, behindParams, _, next, hgetWidth, hbehind, rfl, hat, hreadWidth⟩ :=
    h.getAmount (.inl rfl) htypes hwidth
  obtain ⟨precision, lastParams, previous, next, hgetPrecision, hlast, hlastValues, hat,
    hreadPrecision⟩ := hat.getAmount (.inr rfl) hbehind hprecision
  obtain ⟨arg, later, rfl, hlater, rfl, rfl⟩ := params_cons hlast hlastValues
  obtain ⟨value, final, datum', hgetArgument, hfinal, hread', hformat⟩ :=
    hat.getArgument hwellFormed htype hkind hread formatNumber
  have hne : type ≠ .none :=
    (getFormatType_isString _ hwellFormed.length _ hwellFormed.specifier _ htype).1
  have hprint : TinyBpfLog.Runtime.printFragment formatNumber fragment cursor =
      ((dir.render formatNumber (passed width ++ (passed precision ++ [value]))).map
        fun result => pending.flatMap Token.shown ++
          (result.1 ++ trailing.flatMap Token.shown)).map (·, final) := by
    simp only [TinyBpfLog.Runtime.printFragment, hfragment, fragmentOf, htype,
      Option.getD_some, hgetWidth, hgetPrecision, Option.bind_some, hgetArgument,
      if_neg hne, printSingleArg_eq, Format.fprintf_text _ fun token hmem =>
        (hplain token hmem).wellFormed, Format.render_around _ hsilent.1 hsilent.2,
      Option.map_map]
    rfl
  have hnonneg : Nonneg params ↔ (dir.width = some .star → 0 ≤ width) ∧
      (dir.precision = some .star → 0 ≤ precision) ∧ Nonneg later := by
    rw [hreadWidth.nonneg, hreadPrecision.nonneg, Nonneg, List.forall_mem_cons, ← Nonneg]
    simp [valueType_ne dir]
  refine ⟨later, hlater, rfl, ?_⟩
  by_cases hpassed : (dir.width = some .star → 0 ≤ width) ∧
    (dir.precision = some .star → 0 ≤ precision)
  · have hrendered : dir.render formatNumber
        (passed width ++ (passed precision ++ [value])) =
        some (dir.format formatNumber w p datum, []) := by
      have hp : p = precisionOf dir previous := by
        rw [precisionOf]
        cases hamount : dir.precision with
        | none =>
            rw [hamount] at hprecision
            exact (Prod.mk.inj (Option.some.inj hprecision)).1.symm
        | some amount =>
            rw [hamount] at hprecision
            cases amount with
            | digits text => exact (Prod.mk.inj (Option.some.inj hprecision)).1.symm
            | star => exact hreadPrecision.precision_eq rfl hamount (hpassed.2 hamount)
      simp only [Directive.render, hreadWidth.passed_eq hpassed.1,
        hreadPrecision.passed_eq hpassed.2, Option.bind_some, hkind, hread',
        Option.map_some]
      rw [hp, hformat]
    refine .inl ⟨previous, final, ?_, hfinal, ?_⟩
    · rw [hprint, hrendered]
      rfl
    · rw [hnonneg]
      exact ⟨fun h => h.2.2, fun h => ⟨hpassed.1, hpassed.2, h⟩⟩
  · have hrendered : dir.render formatNumber
        (passed width ++ (passed precision ++ [value])) = none := by
      cases hresult : dir.render formatNumber
        (passed width ++ (passed precision ++ [value])) with
      | none => rfl
      | some result =>
          have hlength := Format.length_render_directive formatNumber hresult
          have hwidthLe := hreadWidth.length_passed
          have hprecisionLe := hreadPrecision.length_passed
          simp only [List.length_append, List.length_singleton, Directive.arity] at hlength
          rcases not_and_or.mp hpassed with hneg | hneg
          · have hlt := hreadWidth.length_passed_lt hneg
            omega
          · have hlt := hreadPrecision.length_passed_lt hneg
            omega
    refine .inr ⟨?_, fun h => hpassed ⟨(hnonneg.mp h).1, (hnonneg.mp h).2.1⟩⟩
    rw [hprint, hrendered]
    rfl

theorem chunks_silent {token : Token} (h : token.Silent) (pending tokens : List Token) :
    chunks pending (token :: tokens) = chunks (pending ++ [token]) tokens := by
  cases token with
  | literal byte => rfl
  | percent => rfl
  | directive dir => exact absurd rfl (h dir)

theorem chunks_nil {pending tokens : List Token} (h : (chunks pending tokens).1 = []) :
    (∀ token ∈ tokens, token.Silent) ∧ (chunks pending tokens).2 = pending ++ tokens := by
  induction tokens generalizing pending with
  | nil => exact ⟨fun _ hmem => absurd hmem List.not_mem_nil, (List.append_nil _).symm⟩
  | cons token tokens ih =>
      by_cases htoken : token.Silent
      · rw [chunks_silent htoken] at h ⊢
        obtain ⟨hsilent, hrest⟩ := ih h
        exact ⟨List.forall_mem_cons.mpr ⟨htoken, hsilent⟩,
          hrest.trans (List.append_cons _ _ _).symm⟩
      · obtain ⟨dir, rfl⟩ := not_forall_not.mp htoken
        cases h

theorem tokenParams_silent {token : Token} (h : token.Silent) : tokenParams token = [] := by
  cases token with
  | literal byte => rfl
  | percent => rfl
  | directive dir => exact absurd rfl (h dir)

theorem formatParams_silent {tokens : List Token} (h : ∀ token ∈ tokens, token.Silent) :
    formatParams tokens = [] :=
  List.flatMap_eq_nil_iff.mpr fun token hmem => tokenParams_silent (h token hmem)

/-- Of the fragments from the next one on: all are printed, unless an amount is negative. -/
theorem Cursor.At.printFragments {tokens pending : List Token}
    (hplain : ∀ token ∈ pending ++ tokens, Plain token)
    (hsilent : ∀ token ∈ pending, token.Silent)
    (h : cursor.At previousPrecision params rest)
    (htypes : params.map Prod.fst = formatParams tokens) {out : Bytes}
    (hrender : Format.render formatNumber tokens (params.map fun param => param.2.value) =
      some (out, []))
    (hne : (chunks pending tokens).1 ≠ []) :
    let printed := TinyBpfLog.Runtime.printFragments formatNumber
      (extendLast (Format.text (chunks pending tokens).2)
        ((chunks pending tokens).1.map fragmentOf)) cursor
    (Nonneg params → ∃ next, printed =
      some (pending.flatMap Token.shown ++ out, next) ∧ next.nextStringArg = rest) ∧
    (¬ Nonneg params → printed = none) := by
  induction tokens generalizing pending cursor previousPrecision params out with
  | nil => exact absurd rfl hne
  | cons token tokens ih =>
      obtain ⟨⟨front, values⟩, hfront, hrender⟩ := Option.bind_eq_some_iff.mp hrender
      obtain ⟨⟨back, left⟩, hback, heq⟩ := Option.map_eq_some_iff.mp hrender
      cases heq
      rw [formatParams, List.flatMap_cons, ← formatParams] at htypes
      by_cases htoken : token.Silent
      · rw [htoken.render] at hfront
        cases hfront
        rw [tokenParams_silent htoken, List.nil_append] at htypes
        rw [chunks_silent htoken] at hne ⊢
        have hplainNext : ∀ later ∈ (pending ++ [token]) ++ tokens, Plain later := by
          rwa [List.append_assoc]
        have hsilentNext : ∀ later ∈ pending ++ [token], later.Silent :=
          List.forall_mem_append.mpr ⟨hsilent, List.forall_mem_singleton.mpr htoken⟩
        have hrest := ih hplainNext hsilentNext h htypes hback hne
        simpa using hrest
      · obtain ⟨dir, rfl⟩ := not_forall_not.mp htoken
        have htext (trailing : List Token) : Format.text (pending ++ [.directive dir]) ++
            Format.text trailing = Format.text (pending ++ .directive dir :: trailing) := by
          rw [← Format.text_append, List.append_assoc]
          rfl
        rw [chunks]
        dsimp only
        cases hlast : (chunks [] tokens).1 with
        | nil =>
            obtain ⟨hsilentRest, hrest⟩ := chunks_nil hlast
            rw [hrest]
            obtain ⟨later, hlater, rfl, hprint⟩ := h.printFragment formatNumber
              ⟨hsilent, hsilentRest⟩ hplain htypes hfront rfl
            rw [← htext] at hprint
            obtain rfl : later = [] := by
              rw [formatParams_silent hsilentRest] at hlater
              exact List.map_eq_nil_iff.mp hlater
            rw [List.map_nil, Format.render_silent _ hsilentRest] at hback
            cases hback
            have hfragment : extendLast (Format.text ([] ++ tokens))
                ([(pending, dir)].map fragmentOf) =
                [{ fragmentOf (pending, dir) with
                  formatFragment := Format.text (pending ++ [.directive dir]) ++
                    Format.text tokens }] := rfl
            have hnil : Nonneg [] := fun _ hmem => absurd hmem List.not_mem_nil
            rcases hprint with ⟨precision, next, hprint, hnext, hiff⟩ | ⟨hprint, hneg⟩
            · refine ⟨fun _ => ⟨next, ?_, hnext.strings⟩,
                fun hneg => absurd (hiff.mpr hnil) hneg⟩
              rw [hfragment, TinyBpfLog.Runtime.printFragments, hprint]
              simp [TinyBpfLog.Runtime.printFragments]
            · refine ⟨fun hnonneg => absurd hnonneg hneg, fun _ => ?_⟩
              rw [hfragment, TinyBpfLog.Runtime.printFragments, hprint]
              rfl
        | cons chunk cs =>
            have hnone : ∀ token ∈ ([] : List Token), token.Silent :=
              fun _ hmem => absurd hmem List.not_mem_nil
            have hnext : (chunks [] tokens).1.map fragmentOf ≠ [] := by
              rw [hlast]
              exact List.cons_ne_nil _ _
            obtain ⟨hplainPending, hplainDir, hplainRest⟩ : (∀ token ∈ pending, Plain token) ∧
                Plain (.directive dir) ∧ ∀ token ∈ tokens, Plain token := by
              rwa [List.forall_mem_append, List.forall_mem_cons] at hplain
            obtain ⟨later, hlater, rfl, hprint⟩ := h.printFragment formatNumber
              ⟨hsilent, hnone⟩ (List.forall_mem_append.mpr
                ⟨hplainPending, List.forall_mem_singleton.mpr hplainDir⟩) htypes hfront
              (show fragmentOf (pending, dir) = _ from rfl)
            rw [← hlast, List.map_cons, extendLast.eq_3 _ _ _ hnext,
              TinyBpfLog.Runtime.printFragments]
            rcases hprint with ⟨precision, next, hprint, hat, hiff⟩ | ⟨hprint, hneg⟩
            · obtain ⟨hgood, hbad⟩ := ih hplainRest hnone hat hlater hback
                (by rw [hlast]; exact List.cons_ne_nil _ _)
              rw [hiff, hprint, Option.bind_some]
              dsimp only
              refine ⟨fun hnonneg => ?_, fun hneg => by rw [hbad hneg]; rfl⟩
              obtain ⟨final, hprinted, hfinal⟩ := hgood hnonneg
              refine ⟨final, ?_, hfinal⟩
              rw [hprinted]
              simp
            · refine ⟨fun hnonneg => absurd hnonneg hneg, fun _ => ?_⟩
              rw [hprint]
              rfl

/-- The whole statement, which is one fragment if it has no directive. -/
theorem Cursor.At.printFragmentsOf {tokens : List Token}
    (hplain : ∀ token ∈ tokens, Plain token)
    (h : cursor.At previousPrecision params rest)
    (htypes : params.map Prod.fst = formatParams tokens) {out : Bytes}
    (hrender : Format.render formatNumber tokens (params.map fun param => param.2.value) =
      some (out, [])) :
    (Nonneg params → ∃ next, TinyBpfLog.Runtime.printFragments formatNumber
      (fragmentsOf tokens) cursor = some (out, next) ∧ next.nextStringArg = rest) ∧
    (¬ Nonneg params → TinyBpfLog.Runtime.printFragments formatNumber
      (fragmentsOf tokens) cursor = none) := by
  rw [fragmentsOf]
  cases hchunks : (chunks [] tokens).1 with
  | nil =>
      have hsilent := (chunks_nil hchunks).1
      obtain rfl : params = [] := by
        rw [formatParams_silent hsilent] at htypes
        exact List.map_eq_nil_iff.mp htypes
      rw [List.map_nil, Format.render_silent _ hsilent] at hrender
      cases hrender
      refine ⟨fun _ => ⟨cursor, ?_, h.strings⟩, fun hneg => absurd (fun _ hmem =>
        absurd hmem List.not_mem_nil) hneg⟩
      simp [TinyBpfLog.Runtime.printFragments, TinyBpfLog.Runtime.printFragment,
        Cursor.getAmount, Format.fprintf_text _ fun token hmem =>
          (hplain token hmem).wellFormed, Format.render_silent _ hsilent]
  | cons chunk cs =>
      have hne : (chunks [] tokens).1 ≠ [] := by
        rw [hchunks]
        exact List.cons_ne_nil _ _
      have hrun := @Cursor.At.printFragments _ _ _ _ formatNumber tokens [] hplain
        (fun _ hmem => absurd hmem List.not_mem_nil) h htypes _ hrender hne
      rwa [hchunks] at hrun

end Cursor

/-! ## Statements -/

theorem reads_numbersOf (params : List (ParamType × Arg)) :
    ∀ packed ∈ numbersOf params, ∃ bits, packed.Reads bits := by
  induction params with
  | nil => exact fun _ hmem => absurd hmem List.not_mem_nil
  | cons param params ih =>
      rw [numbersOf]
      split
      · exact ih
      · obtain ⟨bits, hreads, -⟩ := reads_packArgument param.2
        exact List.forall_mem_cons.mpr ⟨⟨bits, hreads⟩, ih⟩

/-- What `printf` prints as a string is one. -/
theorem suits_of_render (formatNumber : Directive → Option Int → Option Int → UInt64 → Bytes)
    {tokens : List Token} {params : List (ParamType × Arg)}
    (htypes : params.map Prod.fst = formatParams tokens) {out : Bytes} {left : List Value}
    (hrender : Format.render formatNumber tokens (params.map fun param => param.2.value) =
      some (out, left)) : ∀ param ∈ params, Suits param := by
  induction tokens generalizing params out with
  | nil =>
      obtain rfl := List.map_eq_nil_iff.mp htypes
      exact fun _ hmem => absurd hmem List.not_mem_nil
  | cons token tokens ih =>
      obtain ⟨⟨front, values⟩, hfront, hrender⟩ := Option.bind_eq_some_iff.mp hrender
      obtain ⟨⟨back, left'⟩, hback, heq⟩ := Option.map_eq_some_iff.mp hrender
      cases heq
      rw [formatParams, List.flatMap_cons, ← formatParams] at htypes
      by_cases htoken : token.Silent
      · rw [htoken.render] at hfront
        cases hfront
        rw [tokenParams_silent htoken, List.nil_append] at htypes
        exact ih htypes hback
      · obtain ⟨dir, rfl⟩ := not_forall_not.mp htoken
        obtain ⟨_, _, _, value, kind, datum, hwidth, hprecision, hkind, hread, -⟩ :=
          dir.render_eq_some formatNumber hfront
        rw [tokenParams, directiveParams, List.append_assoc, List.append_assoc] at htypes
        obtain ⟨behindParams, hbehind, rfl, hwidthTaken⟩ := takeValue_params htypes hwidth
        obtain ⟨lastParams, hlast, hlastValues, hprecisionTaken⟩ :=
          takeValue_params hbehind hprecision
        refine hwidthTaken.suits (by decide) (hprecisionTaken.suits (by decide) ?_)
        obtain ⟨arg, later, rfl, hlater, rfl, rfl⟩ := params_cons hlast hlastValues
        refine List.forall_mem_cons.mpr ⟨fun hstring => ?_, ih hlater hback⟩
        rw [isString_valueType, decide_eq_true_eq, ← kind_string hkind] at hstring
        subst hstring
        obtain ⟨address, text, harg, -⟩ := string_of_read hread
        exact ⟨address, text, harg⟩

/-- The reader stands before the parameters that were compressed. -/
theorem new_compressed (params : List (ParamType × Arg)) (stale : Nat) (tail : Bytes) :
    ∃ nb, Nibbler.new (packedArguments stale params ++ tail)
        ((params.map Prod.fst).countP fun t => !t.isString) = some nb ∧
      Cursor.At ⟨nb, nb.endOfValues⟩ (-1) params tail := by
  obtain ⟨nb, hnew, hnb⟩ := Nibbler.new_packed stale (reads_numbersOf params)
    (terminated (textsOf (-1) params) ++ tail)
  refine ⟨nb, ?_, ⟨_, hnb⟩, hnb.end_eq⟩
  rw [← hnew, length_numbersOf, packedArguments]
  simp only [List.append_assoc]

/-- Where the counts of the metadata hold, the statement is printed or nothing is. -/
theorem printStatement_packed
    (formatNumber : Directive → Option Int → Option Int → UInt64 → Bytes)
    {tokens : List Token} (h : ∀ token ∈ tokens, Plain token)
    {params : List (ParamType × Arg)} (hparams : params.map Prod.fst = formatParams tokens)
    (hnibbles : ((formatParams tokens).countP fun t => !t.isString) < 256)
    (hfragments : (fragmentsOf tokens).length < 256) {out : Bytes}
    (hrender : Format.render formatNumber tokens (params.map fun param => param.2.value) =
      some (out, []))
    (filename : Bytes) (linenum : UInt32) (severity : UInt8) (stale : Nat) (tail : Bytes) :
    printStatement formatNumber (metadataOf tokens filename linenum severity)
        (packedArguments stale params ++ tail) =
      if Nonneg params then some (out ++ [13, 10], tail) else none := by
  obtain ⟨nb, hnew, hat⟩ := new_compressed params stale tail
  obtain ⟨hgood, hbad⟩ := hat.printFragmentsOf formatNumber h hparams hrender
  rw [hparams] at hnew
  simp only [printStatement, metadataOf, Nat.mod_eq_of_lt hnibbles,
    Nat.mod_eq_of_lt hfragments, hnew, Option.bind_some, List.take_length]
  split
  · next hnonneg =>
      obtain ⟨next, hprinted, hnext⟩ := hgood hnonneg
      rw [hprinted, Option.map_some, hnext]
  · next hneg =>
      rw [hbad hneg]
      rfl

theorem params_eq {tokens : List Token} (h : ∀ token ∈ tokens, token.WellFormed)
    {types : List ParamType}
    (hcount : countFmtParams (Format.text tokens) = .ok types.length)
    (htypes : analyzeFormatString types.length (Format.text tokens) = .ok types) :
    types = formatParams tokens := by
  rw [countFmtParams_text h] at hcount
  rw [← Except.ok.inj hcount, analyzeFormatString_text h] at htypes
  exact (Except.ok.inj htypes).symm

end TinyBpfLog.Runtime
