import TinyBpfLog.Bpftools.Kernel

/-!
# Packed values

A number is stored in as few bytes as it needs.  How many these are, and whether
the number was negated to need fewer, is a code of four bits that is stored
apart from it, in a stream of nibbles.
-/

namespace TinyBpfLog.Runtime

open Foundation
open Bpftools (lowBytes length_lowBytes ofDigits_lowBytes)

/-! ## Numbers in memory -/

/-- The number in the first `size` bytes, the lowest first, and the bytes behind it. -/
def load (size : Nat) (input : Bytes) : Option (UInt64 × Bytes) :=
  if input.length < size then none
  else
    some (.ofNat (Nat.ofDigits 256 ((input.take size).map UInt8.toNat)),
      input.drop size)

theorem load_lowBytes_append (size n : Nat) (rest : Bytes) :
    load size (lowBytes size n ++ rest) = some (.ofNat (n % 256 ^ size), rest) := by
  have hlength := length_lowBytes size n
  rw [load, if_neg (by rw [List.length_append]; omega),
    List.take_append_of_le_length (Nat.le_of_eq hlength.symm),
    List.take_of_length_le (Nat.le_of_eq hlength), ofDigits_lowBytes,
    List.drop_append_of_le_length (Nat.le_of_eq hlength.symm),
    List.drop_of_length_le (Nat.le_of_eq hlength), List.nil_append]

/-! ## Packing -/

/-- What `pack` returns and the bytes that the buffer pointer moves over. -/
structure Packed where
  nibble : Nat
  bytes : Bytes
  deriving DecidableEq, Repr

def numBytes (val : Nat) : Nat :=
  if val < 2 ^ 8 then 1
  else if val < 2 ^ 16 then 2
  else if val < 2 ^ 24 then 3
  else if val < 2 ^ 32 then 4
  else if val < 2 ^ 40 then 5
  else if val < 2 ^ 48 then 6
  else if val < 2 ^ 56 then 7
  else 8

/-- `pack` of any unsigned type. -/
def packUnsigned (val : UInt64) : Packed :=
  ⟨numBytes val.toNat, lowBytes (numBytes val.toNat) val.toNat⟩

/-- The number is stored negated. -/
def Packed.negated (packed : Packed) : Packed :=
  { packed with nibble := 8 + packed.nibble }

def packInt32 (val : Int32) : Packed :=
  if 0 ≤ val ∨ val ≤ -((1 : Int32) <<< 24) then packUnsigned val.toUInt32.toUInt64
  else (packUnsigned (-val).toUInt32.toUInt64).negated

def packInt64 (val : Int64) : Packed :=
  if 0 ≤ val ∨ val ≤ -((1 : Int64) <<< 56) then packUnsigned val.toUInt64
  else (packUnsigned (-val).toUInt64).negated

/-- The value before it is cast, which keeps its low bits, and the bytes behind it. -/
def unpack (packResult : Nat) (input : Bytes) : Option (UInt64 × Bytes) :=
  if packResult ≤ 8 then load packResult input
  else (load (packResult - 8) input).map fun (packed, rest) => (-packed, rest)

theorem numBytes_pos (val : Nat) : 0 < numBytes val := by
  unfold numBytes
  repeat' split
  all_goals decide

theorem numBytes_le (val : Nat) : numBytes val ≤ 8 := by
  unfold numBytes
  repeat' split
  all_goals decide

theorem numBytes_le_iff {val size : Nat} (hpos : 0 < size) (hsize : size < 8) :
    numBytes val ≤ size ↔ val < 256 ^ size := by
  obtain rfl | rfl | rfl | rfl | rfl | rfl | rfl : size = 1 ∨ size = 2 ∨ size = 3 ∨
      size = 4 ∨ size = 5 ∨ size = 6 ∨ size = 7 := by omega
  all_goals
    unfold numBytes
    repeat' split
    all_goals omega

theorem lt_numBytes (val : UInt64) : val.toNat < 256 ^ numBytes val.toNat := by
  have hle := numBytes_le val.toNat
  by_cases hsize : numBytes val.toNat < 8
  · exact (numBytes_le_iff (numBytes_pos _) hsize).mp (Nat.le_refl _)
  · rw [show numBytes val.toNat = 8 by omega]
    exact val.toNat_lt

theorem unpack_packUnsigned (val : UInt64) (rest : Bytes) :
    unpack (packUnsigned val).nibble ((packUnsigned val).bytes ++ rest) =
      some (val, rest) := by
  simp only [packUnsigned]
  rw [unpack, if_pos (numBytes_le _), load_lowBytes_append,
    Nat.mod_eq_of_lt (lt_numBytes val), UInt64.ofNat_toNat]

theorem unpack_negated (val : UInt64) (rest : Bytes) :
    unpack (packUnsigned val).negated.nibble
        ((packUnsigned val).negated.bytes ++ rest) = some (-val, rest) := by
  have hpos := numBytes_pos val.toNat
  have hload := unpack_packUnsigned val rest
  simp only [packUnsigned, Packed.negated] at hload ⊢
  rw [unpack, if_pos (numBytes_le _)] at hload
  rw [unpack, if_neg (by omega), Nat.add_sub_cancel_left, hload]
  rfl

/-! ## What is read back -/

/-- The bytes that a nibble stands for. -/
def nibbleSize (nibble : Nat) : Nat :=
  nibble + (if nibble = 0 then 16 else 0) - (if 8 < nibble then 8 else 0)

theorem nibbleSize_of_le {nibble : Nat} (hpos : 0 < nibble) (h : nibble ≤ 8) :
    nibbleSize nibble = nibble := by
  rw [nibbleSize, if_neg (by omega), if_neg (by omega), Nat.add_zero, Nat.sub_zero]

theorem nibbleSize_add_eight {nibble : Nat} (hpos : 0 < nibble) :
    nibbleSize (8 + nibble) = nibble := by
  rw [nibbleSize, if_neg (by omega), if_pos (by omega)]
  omega

theorem nibbleSize_pos (nibble : Nat) : 0 < nibbleSize nibble := by
  rw [nibbleSize]
  split <;> split <;> omega

/-- The nibble has four bits, tells the size of the bytes, and gives `bits` back. -/
structure Packed.Reads (packed : Packed) (bits : UInt64) : Prop where
  nibble_lt : packed.nibble < 16
  size_eq : nibbleSize packed.nibble = packed.bytes.length
  unpack_eq : ∀ rest, unpack packed.nibble (packed.bytes ++ rest) = some (bits, rest)

theorem reads_packUnsigned (val : UInt64) : (packUnsigned val).Reads val where
  nibble_lt := Nat.lt_of_le_of_lt (numBytes_le _) (by decide)
  size_eq := by
    rw [packUnsigned, length_lowBytes]
    exact nibbleSize_of_le (numBytes_pos _) (numBytes_le _)
  unpack_eq := unpack_packUnsigned val

theorem reads_negated {val : UInt64} (h : val.toNat < 256 ^ 7) :
    (packUnsigned val).negated.Reads (-val) where
  nibble_lt := Nat.add_lt_add_left
    (Nat.lt_succ_of_le ((numBytes_le_iff (by decide) (by decide)).mpr h)) 8
  size_eq := by
    rw [Packed.negated, packUnsigned, length_lowBytes]
    exact nibbleSize_add_eight (numBytes_pos _)
  unpack_eq := unpack_negated val

/-- A negative number has its magnitude below that of the bound. -/
theorem toNat_neg_lt {val bound : BitVec 64} (hneg : val.toInt < 0)
    (hbound : (-bound).toInt < val.toInt) (hpos : 0 < bound.toInt) :
    (-val).toNat < bound.toNat := by
  rw [BitVec.toInt_eq_toNat_cond] at hneg hbound hpos
  rw [BitVec.toInt_eq_toNat_cond, BitVec.toNat_neg] at hbound
  rw [BitVec.toNat_neg]
  have hval := val.isLt
  split at hneg
  · omega
  · split at hpos <;> split at hbound <;> omega

theorem reads_packInt64 (val : Int64) : (packInt64 val).Reads val.toUInt64 := by
  rw [packInt64]
  split
  · exact reads_packUnsigned val.toUInt64
  · next h =>
      obtain ⟨hneg, hbound⟩ := not_or.mp h
      have hsmall : (-val).toUInt64.toNat < 256 ^ 7 := toNat_neg_lt
        (Int.not_le.mp fun hle => hneg (Int64.le_iff_toInt_le.mpr hle))
        (Int.not_le.mp fun hle => hbound (Int64.le_iff_toInt_le.mpr hle)) (by decide)
      have hreads := reads_negated hsmall
      rwa [Int64.toUInt64_neg, UInt64.neg_neg] at hreads

theorem reads_packInt32 (val : Int32) :
    ∃ bits, (packInt32 val).Reads bits ∧ bits.toUInt32 = val.toUInt32 := by
  rw [packInt32]
  split
  · exact ⟨_, reads_packUnsigned _, UInt32.toUInt32_toUInt64 _⟩
  · refine ⟨_, reads_negated ?_, ?_⟩
    · have hlt := (-val).toUInt32.toNat_lt
      rw [UInt32.toNat_toUInt64]
      omega
    · rw [UInt64.toUInt32_neg, UInt32.toUInt32_toUInt64, Int32.toUInt32_neg,
        UInt32.neg_neg]

/-! ## Nibbles -/

/-- Two to a byte; the last may be left with what was in the other half. -/
def nibbleBytes (stale : Nat) : List Nat → Bytes
  | [] => []
  | [first] => [(first % 16 + 16 * (stale % 16)).toUInt8]
  | first :: second :: nibbles =>
      (first % 16 + 16 * (second % 16)).toUInt8 :: nibbleBytes stale nibbles

/-- The stream of nibbles and the values behind it, from the next ones on. -/
structure Nibbler where
  nibblePosition : Bytes
  onFirstNibble : Bool
  currPackedValue : Bytes
  endOfValues : Bytes
  deriving DecidableEq, Repr

def nibblesOf : Nat → Bytes → Option (List Nat)
  | 0, _ => some []
  | 1, byte :: _ => some [byte.toNat % 16]
  | numNibbles + 2, byte :: bytes =>
      (nibblesOf numNibbles bytes).map fun nibbles =>
        byte.toNat % 16 :: byte.toNat / 16 :: nibbles
  | _ + 1, [] => none

def getSizeOfPackedValues : List Nat → Nat
  | [] => 0
  | nibble :: nibbles => nibbleSize nibble + getSizeOfPackedValues nibbles

def Nibbler.new (nibbleStart : Bytes) (numNibbles : Nat) : Option Nibbler :=
  (nibblesOf numNibbles nibbleStart).map fun nibbles =>
    let values := nibbleStart.drop ((numNibbles + 1) / 2)
    ⟨nibbleStart, true, values, values.drop (getSizeOfPackedValues nibbles)⟩

def Nibbler.nibble (nibbler : Nibbler) : Option Nat :=
  nibbler.nibblePosition.head?.map fun byte =>
    if nibbler.onFirstNibble then byte.toNat % 16 else byte.toNat / 16

def Nibbler.getNext (nibbler : Nibbler) : Option (UInt64 × Nibbler) :=
  -- the assertion that there is a value left
  if nibbler.currPackedValue.length ≤ nibbler.endOfValues.length then none
  else
    nibbler.nibble.bind fun nibble =>
      (unpack nibble nibbler.currPackedValue).map fun (bits, values) =>
        (bits, { nibbler with
          nibblePosition :=
            if nibbler.onFirstNibble then nibbler.nibblePosition
            else nibbler.nibblePosition.tail
          onFirstNibble := !nibbler.onFirstNibble
          currPackedValue := values })

/-! ## Streams of values -/

theorem length_nibbleBytes (stale : Nat) (nibbles : List Nat) :
    (nibbleBytes stale nibbles).length = (nibbles.length + 1) / 2 := by
  induction nibbles using nibbleBytes.induct with
  | case1 => rfl
  | case2 first => simp [nibbleBytes]
  | case3 first second nibbles ih =>
      rw [nibbleBytes, List.length_cons, ih, List.length_cons, List.length_cons]
      omega

theorem toNat_twoNibbles {first second : Nat} (hfirst : first < 16) :
    (first % 16 + 16 * (second % 16)).toUInt8.toNat % 16 = first ∧
      (first % 16 + 16 * (second % 16)).toUInt8.toNat / 16 = second % 16 := by
  have hbyte : (first % 16 + 16 * (second % 16)).toUInt8.toNat =
      first % 16 + 16 * (second % 16) := Nat.mod_eq_of_lt (by omega)
  rw [hbyte]
  omega

theorem nibblesOf_nibbleBytes (stale : Nat) {nibbles : List Nat}
    (h : ∀ nibble ∈ nibbles, nibble < 16) (rest : Bytes) :
    nibblesOf nibbles.length (nibbleBytes stale nibbles ++ rest) = some nibbles := by
  induction nibbles using nibbleBytes.induct with
  | case1 => rfl
  | case2 first =>
      rw [nibbleBytes, List.singleton_append, List.length_singleton, nibblesOf,
        (toNat_twoNibbles (h first List.mem_cons_self)).1]
  | case3 first second nibbles ih =>
      have hfirst := h first List.mem_cons_self
      have hsecond := h second (List.mem_cons_of_mem _ List.mem_cons_self)
      have hrest := ih fun nibble hmem =>
        h nibble (List.mem_cons_of_mem _ (List.mem_cons_of_mem _ hmem))
      rw [nibbleBytes, List.cons_append, List.length_cons, List.length_cons, nibblesOf,
        hrest, (toNat_twoNibbles hfirst).1, (toNat_twoNibbles hfirst).2,
        Nat.mod_eq_of_lt hsecond]
      rfl

/-- The first nibble is in the low half of the first byte. -/
theorem nibbleBytes_cons (stale : Nat) {first : Nat} (h : first < 16)
    (nibbles : List Nat) : ∃ byte bytes,
      nibbleBytes stale (first :: nibbles) = byte :: bytes ∧ byte.toNat % 16 = first := by
  cases nibbles with
  | nil => exact ⟨_, _, rfl, (toNat_twoNibbles h).1⟩
  | cons second nibbles => exact ⟨_, _, rfl, (toNat_twoNibbles h).1⟩

/-- The nibbler has the values before it, and then `rest`. -/
structure Nibbler.At (nibbler : Nibbler) (values : List Packed) (rest : Bytes) :
    Prop where
  nibbles : ∃ (stale : Nat) (front : List Nat) (junk : Bytes),
    nibbler.nibblePosition =
      nibbleBytes stale (front ++ values.map Packed.nibble) ++ junk ∧
    front.length = if nibbler.onFirstNibble then 0 else 1
  values_eq : nibbler.currPackedValue = values.flatMap Packed.bytes ++ rest
  end_eq : nibbler.endOfValues = rest

theorem getSizeOfPackedValues_eq {values : List Packed}
    (h : ∀ packed ∈ values, ∃ bits, packed.Reads bits) :
    getSizeOfPackedValues (values.map Packed.nibble) =
      (values.flatMap Packed.bytes).length := by
  induction values with
  | nil => rfl
  | cons packed values ih =>
      obtain ⟨bits, hreads⟩ := h packed List.mem_cons_self
      rw [List.map_cons, getSizeOfPackedValues, hreads.size_eq,
        ih fun later hmem => h later (List.mem_cons_of_mem _ hmem), List.flatMap_cons,
        List.length_append]

/-- A nibbler is set before the values that were packed, and knows where they end. -/
theorem Nibbler.new_packed (stale : Nat) {values : List Packed}
    (h : ∀ packed ∈ values, ∃ bits, packed.Reads bits) (rest : Bytes) :
    ∃ nibbler, Nibbler.new (nibbleBytes stale (values.map Packed.nibble) ++
        (values.flatMap Packed.bytes ++ rest)) values.length = some nibbler ∧
      nibbler.At values rest := by
  have hlt : ∀ nibble ∈ values.map Packed.nibble, nibble < 16 := by
    intro nibble hmem
    obtain ⟨packed, hpacked, rfl⟩ := List.mem_map.mp hmem
    obtain ⟨bits, hreads⟩ := h packed hpacked
    exact hreads.nibble_lt
  have hlength := length_nibbleBytes stale (values.map Packed.nibble)
  have hnibbles := nibblesOf_nibbleBytes stale hlt (values.flatMap Packed.bytes ++ rest)
  rw [List.length_map] at hlength hnibbles
  rw [Nibbler.new, hnibbles]
  refine ⟨_, rfl, ⟨stale, [], _, rfl, rfl⟩, ?_, ?_⟩
  · dsimp only
    rw [← hlength, List.drop_left]
  · dsimp only
    rw [getSizeOfPackedValues_eq h, ← hlength, List.drop_left, List.drop_left]

theorem Nibbler.At.nibble_eq {nibbler : Nibbler} {packed : Packed}
    {values : List Packed} {rest : Bytes} (h : nibbler.At (packed :: values) rest)
    (hlt : packed.nibble < 16) : nibbler.nibble = some packed.nibble := by
  obtain ⟨stale, front, junk, hnibbles, hfront⟩ := h.nibbles
  rw [Nibbler.nibble, hnibbles, List.map_cons]
  cases honFirst : nibbler.onFirstNibble with
  | true =>
      rw [honFirst] at hfront
      obtain rfl := List.length_eq_zero_iff.mp hfront
      obtain ⟨byte, bytes, hbyte, hlow⟩ :=
        nibbleBytes_cons stale hlt (values.map Packed.nibble)
      rw [List.nil_append, hbyte]
      exact congrArg some hlow
  | false =>
      rw [honFirst] at hfront
      obtain ⟨first, rfl⟩ := List.length_eq_one_iff.mp hfront
      rw [List.singleton_append, nibbleBytes]
      have hbyte : (first % 16 + 16 * (packed.nibble % 16)).toUInt8.toNat =
          first % 16 + 16 * (packed.nibble % 16) := Nat.mod_eq_of_lt (by omega)
      refine congrArg some ?_
      change (first % 16 + 16 * (packed.nibble % 16)).toUInt8.toNat / 16 = packed.nibble
      omega

theorem Nibbler.At.getNext {nibbler : Nibbler} {packed : Packed} {values : List Packed}
    {rest : Bytes} (h : nibbler.At (packed :: values) rest) {bits : UInt64}
    (hreads : packed.Reads bits) :
    ∃ next, nibbler.getNext = some (bits, next) ∧ next.At values rest := by
  have hvalues := h.values_eq
  rw [List.flatMap_cons, List.append_assoc] at hvalues
  obtain ⟨stale, front, junk, hnibbles, hfront⟩ := h.nibbles
  have hleft : ¬ nibbler.currPackedValue.length ≤ nibbler.endOfValues.length := by
    have hsize := hreads.size_eq
    have hpos := nibbleSize_pos packed.nibble
    rw [hvalues, h.end_eq, List.length_append, List.length_append]
    omega
  rw [Nibbler.getNext, if_neg hleft, h.nibble_eq hreads.nibble_lt, Option.bind_some,
    hvalues, hreads.unpack_eq]
  refine ⟨_, rfl, ?_, rfl, h.end_eq⟩
  cases honFirst : nibbler.onFirstNibble with
  | true =>
      rw [honFirst] at hfront
      obtain rfl := List.length_eq_zero_iff.mp hfront
      exact ⟨stale, [packed.nibble], junk, hnibbles, rfl⟩
  | false =>
      rw [honFirst] at hfront
      obtain ⟨first, rfl⟩ := List.length_eq_one_iff.mp hfront
      refine ⟨stale, [], junk, ?_, rfl⟩
      rw [hnibbles]
      rfl

end TinyBpfLog.Runtime
