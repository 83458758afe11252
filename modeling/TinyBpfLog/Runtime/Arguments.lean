import TinyBpfLog.Runtime.FormatString
import TinyBpfLog.Runtime.Packer

/-!
# Arguments

The logging thread copies the arguments as they are, a string with its length in
front.  The compression thread goes over the copy twice: first it packs what is
not a string, and then it copies the strings, each with a NUL behind it.
-/

namespace TinyBpfLog.Runtime

open Foundation
open Bpftools (lowBytes length_lowBytes)
open Format (Value)

/-! ## Arguments in the program -/

/-- The types that are neither a string nor a `float`, `long double` or wide string. -/
inductive ArgType where
  | uint8
  | uint16
  | uint32
  | uint64
  | int8
  | int16
  | int32
  | int64
  | double
  | pointer
  deriving DecidableEq, Repr

def ArgType.size : ArgType → Nat
  | .uint8 => 1
  | .uint16 => 2
  | .uint32 => 4
  | .uint64 => 8
  | .int8 => 1
  | .int16 => 2
  | .int32 => 4
  | .int64 => 8
  | .double => 8
  | .pointer => 8

/-- The bytes of a `const char *` up to the NUL. -/
structure CString where
  bytes : Bytes
  zero_notMem : (0 : UInt8) ∉ bytes
  deriving DecidableEq

inductive Arg where
  | scalar (type : ArgType) (bits : UInt64)
  | string (address : UInt64) (text : CString)
  deriving DecidableEq

/-- What the compression function is instantiated with: a string is a pointer. -/
def Arg.type : Arg → ArgType
  | .scalar type _ => type
  | .string _ _ => .pointer

/-- The object's bytes, as a number; a string's are its address. -/
def Arg.bits : Arg → UInt64
  | .scalar _ bits => bits
  | .string address _ => address

/-- What `printf` is passed, after the integral promotions. -/
def Arg.value : Arg → Value
  | .scalar .uint8 bits => .number .word bits.toUInt8.toUInt64
  | .scalar .uint16 bits => .number .word bits.toUInt16.toUInt64
  | .scalar .uint32 bits => .number .word bits
  | .scalar .uint64 bits => .number .long bits
  | .scalar .int8 bits => .number .word bits.toUInt8.toInt8.toInt32.toUInt32.toUInt64
  | .scalar .int16 bits => .number .word bits.toUInt16.toInt16.toInt32.toUInt32.toUInt64
  | .scalar .int32 bits => .number .word bits
  | .scalar .int64 bits => .number .long bits
  | .scalar .double bits => .real bits
  | .scalar .pointer bits => .number .long bits
  | .string address text => .string address text.bytes

/-! ## The copy -/

def asUint64 (type : ArgType) (bits : UInt64) : UInt64 :=
  match type with
  | .uint8 => bits.toUInt8.toUInt64
  | .uint16 => bits.toUInt16.toUInt64
  | .uint32 => bits.toUInt32.toUInt64
  | .uint64 => bits
  | .int8 => bits.toUInt8.toInt8.toInt64.toUInt64
  | .int16 => bits.toUInt16.toInt16.toInt64.toUInt64
  | .int32 => bits.toUInt32.toInt32.toInt64.toUInt64
  | .int64 => bits
  | .double => 0
  | .pointer => 0

/-- `previousPrecision` after the argument. -/
def precisionAfter (previousPrecision : UInt64) (fmtType : ParamType) : Arg → UInt64
  | .scalar .pointer _ => previousPrecision
  | .scalar type bits =>
      if fmtType = .dynamicPrecision then asUint64 type bits else previousPrecision
  | .string _ _ => previousPrecision

/-- `stringBytes` of a string that is printed as one. -/
def stringBytes (previousPrecision : UInt64) (fmtType : ParamType) (text : CString) :
    Nat :=
  match fmtType with
  | .string precision => min text.bytes.length precision
  | .stringWithDynamicPrecision => min text.bytes.length previousPrecision.toNat
  | _ => text.bytes.length

def getArgSize (previousPrecision : UInt64) (fmtType : ParamType) : Arg → Nat
  | .scalar type _ => type.size
  | .string _ text =>
      if fmtType.isString then stringBytes previousPrecision fmtType text + 4 else 8

def getArgSizes (previousPrecision : UInt64) : List (ParamType × Arg) → Nat
  | [] => 0
  | (fmtType, arg) :: params =>
      getArgSize previousPrecision fmtType arg +
        getArgSizes (precisionAfter previousPrecision fmtType arg) params

/-- The entry of `stringSizes` for the argument. -/
def stringSize (previousPrecision : UInt64) (fmtType : ParamType) : Arg → Nat
  | .scalar _ _ => 0
  | .string _ text =>
      if fmtType.isString then stringBytes previousPrecision fmtType text else 0

/-- The `stringSizes` that `getArgSizes` sets. -/
def stringSizes (previousPrecision : UInt64) : List (ParamType × Arg) → List Nat
  | [] => []
  | (fmtType, arg) :: params =>
      stringSize previousPrecision fmtType arg ::
        stringSizes (precisionAfter previousPrecision fmtType arg) params

def storeArgument (paramType : ParamType) (stringSize : Nat) :
    Arg → Except String Bytes
  | .scalar type bits => .ok (lowBytes type.size bits.toNat)
  | .string address text =>
      if ¬ paramType.isString then .ok (lowBytes 8 address.toNat)
      else if 2 ^ 32 ≤ stringSize then
        .error "Strings larger than std::numeric_limits<uint32_t>::max() are unsupported"
      else .ok (lowBytes 4 stringSize ++ text.bytes.take stringSize)

def storeArguments : List (ParamType × Arg) → List Nat → Except String Bytes
  | (paramType, arg) :: params, size :: sizes =>
      match storeArgument paramType size arg with
      | .error message => .error message
      | .ok bytes => (storeArguments params sizes).map (bytes ++ ·)
  | _, _ => .ok []

/-! ## Compression -/

/-- `pack` of an argument; the small signed types are promoted to `int32_t`. -/
def packArgument (type : ArgType) (bits : UInt64) : Packed :=
  match type with
  | .uint8 => packUnsigned bits.toUInt8.toUInt64
  | .uint16 => packUnsigned bits.toUInt16.toUInt64
  | .uint32 => packUnsigned bits.toUInt32.toUInt64
  | .uint64 => packUnsigned bits
  | .int8 => packInt32 bits.toUInt8.toInt8.toInt32
  | .int16 => packInt32 bits.toUInt16.toInt16.toInt32
  | .int32 => packInt32 bits.toUInt32.toInt32
  | .int64 => packInt64 bits.toInt64
  | .double => ⟨8, lowBytes 8 bits.toNat⟩
  | .pointer => packUnsigned bits

/-- What one argument adds to the nibbles and to the output, and the input behind it. -/
def compressSingle (paramType : ParamType) (type : ArgType) (stringsOnly : Bool)
    (input : Bytes) : Option (List Nat × Bytes × Bytes) :=
  if paramType.isString then
    (load 4 input).bind fun (stringBytes, input) =>
      if input.length < stringBytes.toNat then none
      else if stringsOnly then
        some ([], input.take stringBytes.toNat ++ [0], input.drop stringBytes.toNat)
      else some ([], [], input.drop stringBytes.toNat)
  else
    (load type.size input).map fun (bits, input) =>
      if stringsOnly then ([], [], input)
      else
        let packed := packArgument type bits
        ([packed.nibble], packed.bytes, input)

def compressInternal (stringsOnly : Bool) :
    List (ParamType × ArgType) → Bytes → Option (List Nat × Bytes × Bytes)
  | [], input => some ([], [], input)
  | (paramType, type) :: params, input =>
      (compressSingle paramType type stringsOnly input).bind
        fun (nibbles, output, input) =>
          (compressInternal stringsOnly params input).map
            fun (laterNibbles, laterOutput, input) =>
              (nibbles ++ laterNibbles, output ++ laterOutput, input)

/-- The bytes written and the input that is left, if the nibbles fill their space. -/
def compress (numNibbles : Nat) (params : List (ParamType × ArgType)) (stale : Nat)
    (input : Bytes) : Option (Bytes × Bytes) :=
  (compressInternal false params input).bind fun (nibbles, values, _) =>
    (compressInternal true params input).bind fun (_, strings, rest) =>
      if nibbles.length = numNibbles then
        some (nibbleBytes stale nibbles ++ (values ++ strings), rest)
      else none

/-! ## The size that is reserved -/

theorem storeArguments_cons {param : ParamType × Arg} {params : List (ParamType × Arg)}
    {size : Nat} {sizes : List Nat} {stored : Bytes}
    (h : storeArguments (param :: params) (size :: sizes) = .ok stored) :
    ∃ bytes later, storeArgument param.1 size param.2 = .ok bytes ∧
      storeArguments params sizes = .ok later ∧ stored = bytes ++ later := by
  rw [storeArguments] at h
  split at h
  · cases h
  · next bytes hbytes =>
      cases hlater : storeArguments params sizes with
      | error message => rw [hlater] at h; cases h
      | ok later =>
          rw [hlater] at h
          cases h
          exact ⟨bytes, later, hbytes, rfl, rfl⟩

theorem stringBytes_le (previousPrecision : UInt64) (fmtType : ParamType)
    (text : CString) : stringBytes previousPrecision fmtType text ≤ text.bytes.length := by
  rw [stringBytes.eq_def]
  split
  · exact Nat.min_le_left _ _
  · exact Nat.min_le_left _ _
  · exact Nat.le_refl _

theorem length_storeArgument {paramType : ParamType} {previousPrecision : UInt64}
    {arg : Arg} {bytes : Bytes}
    (h : storeArgument paramType (stringSize previousPrecision paramType arg) arg =
      .ok bytes) : bytes.length = getArgSize previousPrecision paramType arg := by
  cases arg with
  | scalar type bits =>
      cases h
      exact length_lowBytes _ _
  | string address text =>
      rw [storeArgument, stringSize] at h
      rw [getArgSize]
      by_cases hstring : paramType.isString
      · rw [if_neg (not_not.mpr hstring), if_pos hstring] at h
        rw [if_pos hstring]
        split at h
        · cases h
        · cases h
          rw [List.length_append, length_lowBytes, List.length_take,
            Nat.min_eq_left (stringBytes_le _ _ _), Nat.add_comm]
      · rw [if_pos hstring] at h
        rw [if_neg hstring]
        cases h
        exact length_lowBytes _ _

/-- `allocSize` is what the copy takes: the assertion at the end of `log`. -/
theorem length_storeArguments {params : List (ParamType × Arg)}
    {previousPrecision : UInt64} {stored : Bytes}
    (h : storeArguments params (stringSizes previousPrecision params) = .ok stored) :
    stored.length = getArgSizes previousPrecision params := by
  induction params generalizing previousPrecision stored with
  | nil =>
      cases h
      rfl
  | cons param params ih =>
      rw [stringSizes] at h
      obtain ⟨bytes, later, hbytes, hlater, rfl⟩ := storeArguments_cons h
      rw [List.length_append, length_storeArgument hbytes, ih hlater]
      rfl

/-! ## What is read back of a number -/

theorem ofNat_toNat_mod (bits : UInt64) :
    UInt64.ofNat (bits.toNat % 256 ^ 8) = bits := by
  have hlt : bits.toNat < 256 ^ 8 := bits.toNat_lt
  rw [Nat.mod_eq_of_lt hlt, UInt64.ofNat_toNat]

/-- Only the bytes of its own type matter for how an argument is packed. -/
theorem packArgument_stored (type : ArgType) (bits : UInt64) :
    packArgument type (.ofNat (bits.toNat % 256 ^ type.size)) = packArgument type bits := by
  have hbyte : (UInt64.ofNat (bits.toNat % 256 ^ 1)).toUInt8 = bits.toUInt8 := by
    apply UInt8.toNat_inj.mp
    simp
  have hhalf : (UInt64.ofNat (bits.toNat % 256 ^ 2)).toUInt16 = bits.toUInt16 := by
    apply UInt16.toNat_inj.mp
    simp
  have hword : (UInt64.ofNat (bits.toNat % 256 ^ 4)).toUInt32 = bits.toUInt32 := by
    apply UInt32.toNat_inj.mp
    simp
  cases type <;>
    simp only [packArgument, ArgType.size, hbyte, hhalf, hword, ofNat_toNat_mod]

/-- The number is read back as far as it is known. -/
def Agrees (bits : UInt64) : Value → Prop
  | .number width given => width.truncate bits = width.truncate given
  | .real given => bits = given
  | .string address _ => bits = address

theorem reads_double (bits : UInt64) :
    (⟨8, lowBytes 8 bits.toNat⟩ : Packed).Reads bits where
  nibble_lt := Nat.le_add_left _ _
  size_eq := by rw [length_lowBytes]; rfl
  unpack_eq rest := by
    rw [unpack, if_pos (Nat.le_refl 8), load_lowBytes_append, ofNat_toNat_mod]

theorem reads_packArgument (arg : Arg) :
    ∃ bits, (packArgument arg.type arg.bits).Reads bits ∧ Agrees bits arg.value := by
  have hword {val : Int32} {given : UInt64} (h : given.toUInt32 = val.toUInt32) :
      ∃ bits, (packInt32 val).Reads bits ∧ Agrees bits (.number .word given) := by
    obtain ⟨bits, hreads, hbits⟩ := reads_packInt32 val
    exact ⟨bits, hreads, congrArg UInt32.toUInt64 (hbits.trans h.symm)⟩
  cases arg with
  | string address text => exact ⟨_, reads_packUnsigned _, rfl⟩
  | scalar type bits =>
      cases type with
      | uint8 => exact ⟨_, reads_packUnsigned _, rfl⟩
      | uint16 => exact ⟨_, reads_packUnsigned _, rfl⟩
      | uint32 =>
          exact ⟨_, reads_packUnsigned _,
            congrArg UInt32.toUInt64 (UInt32.toUInt32_toUInt64 _)⟩
      | uint64 => exact ⟨_, reads_packUnsigned _, rfl⟩
      | int8 => exact hword (UInt32.toUInt32_toUInt64 _)
      | int16 => exact hword (UInt32.toUInt32_toUInt64 _)
      | int32 => exact hword rfl
      | int64 => exact ⟨_, reads_packInt64 _, rfl⟩
      | double => exact ⟨_, reads_double _, rfl⟩
      | pointer => exact ⟨_, reads_packUnsigned _, rfl⟩

/-! ## What is compressed of a copy -/

/-- An argument that is printed as a string is one. -/
def Suits (param : ParamType × Arg) : Prop :=
  param.1.isString → ∃ address text, param.2 = .string address text

/-- What is packed of the arguments. -/
def numbersOf : List (ParamType × Arg) → List Packed
  | [] => []
  | (paramType, arg) :: params =>
      if paramType.isString then numbersOf params
      else packArgument arg.type arg.bits :: numbersOf params

/-- The strings among the arguments, cut as they are when they are copied. -/
def textsOf (previousPrecision : UInt64) : List (ParamType × Arg) → List Bytes
  | [] => []
  | (paramType, arg) :: params =>
      let later := textsOf (precisionAfter previousPrecision paramType arg) params
      match arg with
      | .scalar _ _ => later
      | .string _ text =>
          if paramType.isString then
            text.bytes.take (stringBytes previousPrecision paramType text) :: later
          else later

def terminated (texts : List Bytes) : Bytes :=
  texts.flatMap (· ++ [0])

theorem compressSingle_string {paramType : ParamType} (hstring : paramType.isString)
    (type : ArgType) (stringsOnly : Bool) {text : Bytes} (htext : text.length < 2 ^ 32)
    (rest : Bytes) :
    compressSingle paramType type stringsOnly
        (lowBytes 4 text.length ++ (text ++ rest)) =
      some ([], if stringsOnly then text ++ [0] else [], rest) := by
  have hmod : text.length % 256 ^ 4 = text.length := Nat.mod_eq_of_lt htext
  have hsize : (UInt64.ofNat (text.length % 256 ^ 4)).toNat = text.length := by
    rw [hmod]
    exact Nat.mod_eq_of_lt (by omega)
  rw [compressSingle, if_pos hstring, load_lowBytes_append, Option.bind_some]
  dsimp only
  rw [hsize, if_neg (by rw [List.length_append]; omega), List.take_left, List.drop_left]
  cases stringsOnly <;> rfl

theorem compressSingle_number {paramType : ParamType} (hstring : ¬ paramType.isString)
    (type : ArgType) (bits : UInt64) (stringsOnly : Bool) (rest : Bytes) :
    compressSingle paramType type stringsOnly (lowBytes type.size bits.toNat ++ rest) =
      some (if stringsOnly then ([], [], rest)
        else ([(packArgument type bits).nibble], (packArgument type bits).bytes, rest)) := by
  rw [compressSingle, if_neg hstring, load_lowBytes_append, Option.map_some]
  dsimp only
  rw [packArgument_stored]

theorem storeArgument_number {paramType : ParamType} (hstring : ¬ paramType.isString)
    (size : Nat) (arg : Arg) :
    storeArgument paramType size arg = .ok (lowBytes arg.type.size arg.bits.toNat) := by
  cases arg with
  | scalar type bits => rfl
  | string address text => rw [storeArgument, if_pos hstring]; rfl

theorem storeArgument_string {paramType : ParamType} (hstring : paramType.isString)
    {previousPrecision address : UInt64} {text : CString} {bytes : Bytes}
    (h : storeArgument paramType
      (stringSize previousPrecision paramType (.string address text))
      (.string address text) = .ok bytes) :
    ∃ shown : Bytes,
      shown = text.bytes.take (stringBytes previousPrecision paramType text) ∧
      shown.length < 2 ^ 32 ∧ bytes = lowBytes 4 shown.length ++ shown := by
  have hlength : (text.bytes.take (stringBytes previousPrecision paramType text)).length =
      stringBytes previousPrecision paramType text := by
    rw [List.length_take, Nat.min_eq_left (stringBytes_le _ _ _)]
  rw [storeArgument, if_neg (not_not.mpr hstring), stringSize, if_pos hstring] at h
  split at h
  · cases h
  · next hlt =>
      cases h
      exact ⟨_, rfl, by rw [hlength]; exact Nat.lt_of_not_le hlt, by rw [hlength]⟩

theorem compressInternal_stored {params : List (ParamType × Arg)}
    (hsuits : ∀ param ∈ params, Suits param) {previousPrecision : UInt64} {stored : Bytes}
    (hstored : storeArguments params (stringSizes previousPrecision params) = .ok stored)
    (rest : Bytes) :
    compressInternal false (params.map fun param => (param.1, param.2.type))
        (stored ++ rest) =
      some ((numbersOf params).map Packed.nibble, (numbersOf params).flatMap Packed.bytes,
        rest) ∧
    compressInternal true (params.map fun param => (param.1, param.2.type))
        (stored ++ rest) =
      some ([], terminated (textsOf previousPrecision params), rest) := by
  induction params generalizing previousPrecision stored with
  | nil =>
      cases hstored
      exact ⟨rfl, rfl⟩
  | cons param params ih =>
      obtain ⟨paramType, arg⟩ := param
      rw [stringSizes] at hstored
      obtain ⟨bytes, later, hbytes, hlater, rfl⟩ := storeArguments_cons hstored
      obtain ⟨hvalues, hstrings⟩ :=
        ih (fun param hmem => hsuits param (List.mem_cons_of_mem _ hmem)) hlater
      simp only [List.map_cons, compressInternal, numbersOf, textsOf, List.append_assoc]
      by_cases hstring : paramType.isString
      · obtain ⟨address, text, rfl⟩ := hsuits _ List.mem_cons_self hstring
        obtain ⟨shown, hshown, hlength, rfl⟩ := storeArgument_string hstring hbytes
        simp only [List.append_assoc, compressSingle_string hstring _ _ hlength,
          Option.bind_some, hvalues, hstrings, if_pos hstring, ← hshown]
        exact ⟨rfl, rfl⟩
      · rw [storeArgument_number hstring] at hbytes
        cases hbytes
        simp only [compressSingle_number hstring, Option.bind_some, hvalues, hstrings,
          if_neg hstring, if_true, Bool.false_eq_true, if_false]
        cases arg <;> exact ⟨rfl, rfl⟩

theorem length_numbersOf (params : List (ParamType × Arg)) :
    (numbersOf params).length = (params.map Prod.fst).countP fun t => !t.isString := by
  induction params with
  | nil => rfl
  | cons param params ih =>
      rw [numbersOf, List.map_cons, List.countP_cons, ← ih]
      cases param.1.isString <;> rfl

/-- What is written of the arguments; the last nibble may share its byte with `stale`. -/
def packedArguments (stale : Nat) (params : List (ParamType × Arg)) : Bytes :=
  nibbleBytes stale ((numbersOf params).map Packed.nibble) ++
    ((numbersOf params).flatMap Packed.bytes ++ terminated (textsOf (-1) params))

theorem compress_stored {params : List (ParamType × Arg)}
    (hsuits : ∀ param ∈ params, Suits param) {stored : Bytes}
    (hstored : storeArguments params (stringSizes (-1) params) = .ok stored)
    (stale : Nat) (rest : Bytes) :
    compress ((params.map Prod.fst).countP fun t => !t.isString)
        (params.map fun param => (param.1, param.2.type)) stale (stored ++ rest) =
      some (packedArguments stale params, rest) := by
  obtain ⟨hvalues, hstrings⟩ := compressInternal_stored hsuits hstored rest
  rw [compress, hvalues, hstrings]
  simp only [Option.bind_some]
  rw [if_pos (by rw [List.length_map, length_numbersOf]), packedArguments]

/-! ## The room that compression needs -/

theorem length_packUnsigned_le {val : UInt64} {size : Nat} (hpos : 0 < size)
    (hsize : size < 8) (h : val.toNat < 256 ^ size) :
    (packUnsigned val).bytes.length ≤ size := by
  rw [packUnsigned, length_lowBytes]
  exact (numBytes_le_iff hpos hsize).mpr h

/-- A small number of `int32_t` needs no more bytes than its magnitude. -/
theorem length_packInt32_le {val : Int32} {size : Nat} (hpos : 0 < size) (hsize : size < 4)
    (hlow : -(256 ^ size : Nat) < val.toInt) (hhigh : val.toInt < (256 ^ size : Nat)) :
    (packInt32 val).bytes.length ≤ size := by
  have hpow : 256 ^ size ≤ 256 ^ 3 := Nat.pow_le_pow_right (by decide) (by omega)
  have hval : val.toInt = val.toBitVec.toInt := rfl
  have hnat := BitVec.toInt_eq_toNat_cond val.toBitVec
  rw [packInt32]
  split
  · next h =>
      refine length_packUnsigned_le hpos (by omega) ?_
      rw [UInt32.toNat_toUInt64]
      change val.toBitVec.toNat < _
      have hnonneg : 0 ≤ val.toInt := by
        rcases h with h | h
        · exact Int32.le_iff_toInt_le.mp h
        · have hle := Int32.le_iff_toInt_le.mp h
          have hbound : (-((1 : Int32) <<< 24)).toInt = -(256 ^ 3 : Nat) := by decide
          omega
      have hlt := val.toBitVec.isLt
      split at hnat <;> omega
  · next h =>
      refine length_packUnsigned_le hpos (by omega) ?_
      rw [UInt32.toNat_toUInt64]
      change (-val.toBitVec).toNat < _
      have hneg : val.toInt < 0 := by
        have hnot := mt Int32.le_iff_toInt_le.mpr (not_or.mp h).1
        exact Int.not_le.mp hnot
      have hlt := val.toBitVec.isLt
      rw [BitVec.toNat_neg]
      split at hnat <;> omega

theorem length_packArgument_le (type : ArgType) (bits : UInt64) :
    (packArgument type bits).bytes.length ≤ type.size := by
  have hlong (val : UInt64) : (packUnsigned val).bytes.length ≤ 8 := by
    rw [packUnsigned, length_lowBytes]
    exact numBytes_le _
  cases type with
  | uint8 =>
      refine length_packUnsigned_le (by decide) (by decide) ?_
      rw [UInt8.toNat_toUInt64]
      exact bits.toUInt8.toNat_lt
  | uint16 =>
      refine length_packUnsigned_le (by decide) (by decide) ?_
      rw [UInt16.toNat_toUInt64]
      exact bits.toUInt16.toNat_lt
  | uint32 =>
      refine length_packUnsigned_le (by decide) (by decide) ?_
      rw [UInt32.toNat_toUInt64]
      exact bits.toUInt32.toNat_lt
  | uint64 => exact hlong _
  | int8 =>
      have hlow := bits.toUInt8.toInt8.le_toInt
      have hhigh := bits.toUInt8.toInt8.toInt_lt
      refine length_packInt32_le (by decide) (by decide) ?_ ?_ <;>
        rw [Int8.toInt_toInt32, ArgType.size] <;> omega
  | int16 =>
      have hlow := bits.toUInt16.toInt16.le_toInt
      have hhigh := bits.toUInt16.toInt16.toInt_lt
      refine length_packInt32_le (by decide) (by decide) ?_ ?_ <;>
        rw [Int16.toInt_toInt32, ArgType.size] <;> omega
  | int32 =>
      have hword (val : UInt32) : (packUnsigned val.toUInt64).bytes.length ≤ 4 := by
        refine length_packUnsigned_le (by decide) (by decide) ?_
        rw [UInt32.toNat_toUInt64]
        exact val.toNat_lt
      rw [packArgument, packInt32]
      split
      · exact hword _
      · exact hword _
  | int64 =>
      rw [packArgument, packInt64]
      split
      · exact hlong _
      · exact hlong _
  | double => exact Nat.le_of_eq (length_lowBytes _ _)
  | pointer => exact hlong _

theorem ArgType.size_pos (type : ArgType) : 0 < type.size := by
  cases type <;> decide

theorem length_parts_le {params : List (ParamType × Arg)}
    (hsuits : ∀ param ∈ params, Suits param) {previousPrecision : UInt64} {stored : Bytes}
    (hstored : storeArguments params (stringSizes previousPrecision params) = .ok stored) :
    (numbersOf params).length + ((numbersOf params).flatMap Packed.bytes).length +
      (terminated (textsOf previousPrecision params)).length ≤ 2 * stored.length := by
  induction params generalizing previousPrecision stored with
  | nil =>
      cases hstored
      exact Nat.le_refl _
  | cons param params ih =>
      obtain ⟨paramType, arg⟩ := param
      rw [stringSizes] at hstored
      obtain ⟨bytes, later, hbytes, hlater, rfl⟩ := storeArguments_cons hstored
      have hrest := ih (fun param hmem => hsuits param (List.mem_cons_of_mem _ hmem)) hlater
      simp only [numbersOf, textsOf, List.length_append]
      by_cases hstring : paramType.isString
      · obtain ⟨address, text, rfl⟩ := hsuits _ List.mem_cons_self hstring
        obtain ⟨shown, hshown, -, rfl⟩ := storeArgument_string hstring hbytes
        simp only [if_pos hstring, ← hshown, terminated, List.flatMap_cons,
          List.length_append, List.length_singleton, length_lowBytes] at hrest ⊢
        omega
      · rw [storeArgument_number hstring] at hbytes
        cases hbytes
        have hlength := length_packArgument_le arg.type arg.bits
        have hpos := arg.type.size_pos
        simp only [if_neg hstring, List.length_cons, List.flatMap_cons,
          List.length_append, length_lowBytes]
        cases arg <;> dsimp only <;> omega

theorem length_packedArguments_le {params : List (ParamType × Arg)}
    (hsuits : ∀ param ∈ params, Suits param) {stored : Bytes}
    (hstored : storeArguments params (stringSizes (-1) params) = .ok stored) (stale : Nat) :
    (packedArguments stale params).length ≤ 2 * stored.length := by
  have hparts := length_parts_le hsuits hstored
  rw [packedArguments, List.length_append, List.length_append, length_nibbleBytes,
    List.length_map]
  omega

end TinyBpfLog.Runtime
