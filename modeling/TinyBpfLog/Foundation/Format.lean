import Mathlib.Data.List.TakeWhile
import TinyBpfLog.Foundation.Bytes

/-!
# Formats of the `printf` family

A format is a list of tokens: bytes that stand for themselves, `%%`, and
directives.  The text of well-formed tokens is read back as the same tokens, and
a directive consumes its dynamic width, its dynamic precision and its argument,
in this order.  How a number looks is left to the library, as a parameter.
-/

namespace TinyBpfLog.Foundation.Format

/-! ## Tokens and their text -/

/-- A width or a precision. -/
inductive Amount where
  -- `*`: it is an argument of its own
  | star
  | digits (text : Bytes)
  deriving DecidableEq, Repr

structure Directive where
  flags : Bytes
  width : Option Amount
  precision : Option Amount
  length : Bytes
  specifier : UInt8
  deriving DecidableEq, Repr

inductive Token where
  | literal (byte : UInt8)
  | percent
  | directive (dir : Directive)
  deriving DecidableEq, Repr

def Amount.text : Amount → Bytes
  | .star => [42]
  | .digits text => text

def widthText : Option Amount → Bytes
  | none => []
  | some amount => amount.text

def precisionText : Option Amount → Bytes
  | none => []
  | some amount => 46 :: amount.text

/-- What follows the `%` of a directive. -/
def Directive.body (dir : Directive) : Bytes :=
  dir.flags ++ (widthText dir.width ++
    (precisionText dir.precision ++ (dir.length ++ [dir.specifier])))

def Token.text : Token → Bytes
  | .literal byte => [byte]
  | .percent => [37, 37]
  | .directive dir => 37 :: dir.body

def text (tokens : List Token) : Bytes :=
  tokens.flatMap Token.text

@[simp] theorem text_nil : text [] = [] := rfl

@[simp] theorem text_cons (token : Token) (tokens : List Token) :
    text (token :: tokens) = token.text ++ text tokens := rfl

theorem text_append (front back : List Token) :
    text (front ++ back) = text front ++ text back :=
  List.flatMap_append

/-! ## Well-formed tokens -/

def isFlag (byte : UInt8) : Bool :=
  byte = 45 || byte = 43 || byte = 32 || byte = 35 || byte = 48

def isDigit (byte : UInt8) : Bool :=
  48 ≤ byte && byte ≤ 57

/-- `h l j z t L` -/
def lengthBytes : Bytes :=
  [104, 108, 106, 122, 116, 76]

def isLength (byte : UInt8) : Bool :=
  byte ∈ lengthBytes

/-- `hh`, `h`, `l`, `ll`, `j`, `z`, `t`, `L`, or none. -/
def lengths : List Bytes :=
  [[104, 104], [104], [108], [108, 108], [106], [122], [116], [76], []]

/-- Those of `d i u o x X f F e E g G a A c s p`. -/
def specifiers : Bytes :=
  [100, 105, 117, 111, 120, 88, 102, 70, 101, 69, 103, 71, 97, 65, 99, 115, 112]

/-- A number with at least one digit, unless it is left to an argument. -/
def Amount.WellFormed : Amount → Prop
  | .star => True
  | .digits text => text ≠ [] ∧ ∀ byte ∈ text, isDigit byte

/-- A leading zero of a width is a flag. -/
def Amount.WidthOk (amount : Amount) : Prop :=
  amount.WellFormed ∧ ∀ byte, amount.text.head? = some byte → ¬ isFlag byte

structure Directive.WellFormed (dir : Directive) : Prop where
  flags : ∀ byte ∈ dir.flags, isFlag byte
  width : ∀ amount, dir.width = some amount → amount.WidthOk
  precision : ∀ amount, dir.precision = some amount → amount.WellFormed
  length : dir.length ∈ lengths
  specifier : dir.specifier ∈ specifiers

def Token.WellFormed : Token → Prop
  | .literal byte => byte ≠ 37
  | .percent => True
  | .directive dir => dir.WellFormed

theorem Amount.WellFormed.zero_notMem {amount : Amount} (h : amount.WellFormed) :
    (0 : UInt8) ∉ amount.text := by
  cases amount with
  | star => decide
  | digits text => exact fun hmem => absurd (h.2 0 hmem) (by decide)

theorem Directive.WellFormed.zero_notMem {dir : Directive} (h : dir.WellFormed) :
    (0 : UInt8) ∉ dir.body := by
  have hflags : (0 : UInt8) ∉ dir.flags := fun hmem => absurd (h.flags 0 hmem) (by decide)
  have hwidth : (0 : UInt8) ∉ widthText dir.width := by
    cases hamount : dir.width with
    | none => exact List.not_mem_nil
    | some amount => exact (h.width amount hamount).1.zero_notMem
  have hprecision : (0 : UInt8) ∉ precisionText dir.precision := by
    cases hamount : dir.precision with
    | none => exact List.not_mem_nil
    | some amount =>
        exact List.not_mem_cons_of_ne_of_not_mem (by decide)
          (h.precision amount hamount).zero_notMem
  have hlengths : ∀ length ∈ lengths, (0 : UInt8) ∉ length := by decide
  have hspecifiers : (0 : UInt8) ∉ specifiers := by decide
  have hspecifier : (0 : UInt8) ≠ dir.specifier := fun heq =>
    hspecifiers (heq ▸ h.specifier)
  simp only [body, List.mem_append, List.mem_singleton, not_or]
  exact ⟨hflags, hwidth, hprecision, hlengths _ h.length, hspecifier⟩

/-- A NUL is in the text of well-formed tokens only where it stands for itself. -/
theorem zero_notMem_text {tokens : List Token} (h : ∀ token ∈ tokens, token.WellFormed)
    (hzero : Token.literal 0 ∉ tokens) : (0 : UInt8) ∉ text tokens := by
  rw [text, List.mem_flatMap]
  rintro ⟨token, hmem, hbyte⟩
  have hwellFormed := h token hmem
  cases token with
  | literal byte =>
      obtain rfl := List.mem_singleton.mp hbyte
      exact hzero hmem
  | percent => exact absurd hbyte (by decide)
  | directive dir =>
      exact Directive.WellFormed.zero_notMem hwellFormed
        (List.mem_of_ne_of_mem (by decide) hbyte)

instance : DecidablePred Amount.WellFormed
  | .star => isTrue trivial
  | .digits text =>
      decidable_of_iff (text ≠ [] ∧ text.all isDigit)
        (by rw [Amount.WellFormed, List.all_eq_true])

instance : DecidablePred Amount.WidthOk := fun amount =>
  decidable_of_iff (amount.WellFormed ∧ amount.text.head?.all fun byte => !isFlag byte)
    (by rw [Amount.WidthOk, Option.all_eq_true]; simp)

instance : DecidablePred Directive.WellFormed := fun dir =>
  decidable_of_iff
    (dir.flags.all isFlag ∧ (∀ amount ∈ dir.width, amount.WidthOk) ∧
      (∀ amount ∈ dir.precision, amount.WellFormed) ∧ dir.length ∈ lengths ∧
      dir.specifier ∈ specifiers)
    ⟨fun ⟨flags, width, precision, length, specifier⟩ =>
        ⟨List.all_eq_true.mp flags, width, precision, length, specifier⟩,
      fun h => ⟨List.all_eq_true.mpr h.flags, h.width, h.precision, h.length, h.specifier⟩⟩

instance : DecidablePred Token.WellFormed
  | .literal byte => inferInstanceAs (Decidable (byte ≠ 37))
  | .percent => isTrue trivial
  | .directive dir => inferInstanceAs (Decidable dir.WellFormed)

/-! ## Reading a format -/

/-- The amount in front of the bytes, if there is one. -/
def takeAmount (bytes : Bytes) : Option Amount × Bytes :=
  if bytes.head? = some 42 then (some .star, bytes.drop 1)
  else if bytes.takeWhile isDigit = [] then (none, bytes)
  else (some (.digits (bytes.takeWhile isDigit)), bytes.dropWhile isDigit)

def takePrecision (bytes : Bytes) : Option Amount × Bytes :=
  if bytes.head? = some 46 then
    let (amount, rest) := takeAmount (bytes.drop 1)
    -- a point alone is a precision of zero
    (some (amount.getD (.digits [])), rest)
  else (none, bytes)

def takeDirective (bytes : Bytes) : Option (Directive × Bytes) :=
  let flags := bytes.takeWhile isFlag
  let (width, rest) := takeAmount (bytes.dropWhile isFlag)
  let (precision, rest) := takePrecision rest
  let length := rest.takeWhile isLength
  match rest.dropWhile isLength with
  | [] => none
  | specifier :: rest =>
      if length ∈ lengths ∧ specifier ∈ specifiers then
        some (⟨flags, width, precision, length, specifier⟩, rest)
      else none

def parseFuel : Nat → Bytes → Option (List Token)
  | _, [] => some []
  | 0, _ :: _ => none
  | fuel + 1, byte :: bytes =>
      if byte ≠ 37 then (parseFuel fuel bytes).map (.literal byte :: ·)
      else if bytes.head? = some 37 then
        (parseFuel fuel (bytes.drop 1)).map (.percent :: ·)
      else
        match takeDirective bytes with
        | none => none
        | some (dir, rest) => (parseFuel fuel rest).map (.directive dir :: ·)

def parse (format : Bytes) : Option (List Token) :=
  parseFuel format.length format

/-! ### The text of tokens is read back -/

theorem takeWhile_append_stop {p : UInt8 → Bool} {front rest : Bytes}
    (hfront : ∀ byte ∈ front, p byte)
    (hrest : ∀ byte, rest.head? = some byte → ¬ p byte) :
    (front ++ rest).takeWhile p = front ∧ (front ++ rest).dropWhile p = rest := by
  rw [List.takeWhile_append_of_pos hfront, List.dropWhile_append_of_pos hfront]
  cases rest with
  | nil => simp
  | cons byte rest => simp [hrest byte rfl]

theorem takeAmount_text {amount : Option Amount} {rest : Bytes}
    (h : ∀ a, amount = some a → a.WellFormed)
    (hrest : ∀ byte, rest.head? = some byte → ¬ isDigit byte ∧ byte ≠ 42) :
    takeAmount (widthText amount ++ rest) = (amount, rest) := by
  have hstop : ∀ byte, rest.head? = some byte → ¬ isDigit byte :=
    fun byte hbyte => (hrest byte hbyte).1
  cases amount with
  | none =>
      have hnone := @takeWhile_append_stop isDigit [] rest (by simp) hstop
      rw [List.nil_append] at hnone
      rw [widthText, List.nil_append, takeAmount, if_neg, if_pos hnone.1]
      exact fun hstar => (hrest 42 hstar).2 rfl
  | some amount =>
      cases amount with
      | star => simp [widthText, Amount.text, takeAmount]
      | digits digits =>
          obtain ⟨hne, hdigits⟩ := h _ rfl
          obtain ⟨htake, hdrop⟩ := takeWhile_append_stop hdigits hstop
          rw [widthText, Amount.text, takeAmount, if_neg, htake, if_neg hne, hdrop]
          cases digits with
          | nil => exact absurd rfl hne
          | cons byte digits =>
              intro hstar
              obtain rfl : byte = 42 := by simpa using hstar
              exact absurd (hdigits 42 List.mem_cons_self) (by decide)

theorem takePrecision_text {amount : Option Amount} {rest : Bytes}
    (h : ∀ a, amount = some a → a.WellFormed)
    (hrest : ∀ byte, rest.head? = some byte →
      ¬ isDigit byte ∧ byte ≠ 42 ∧ byte ≠ 46) :
    takePrecision (precisionText amount ++ rest) = (amount, rest) := by
  cases amount with
  | none =>
      rw [precisionText, List.nil_append, takePrecision, if_neg]
      exact fun hpoint => (hrest 46 hpoint).2.2 rfl
  | some amount =>
      have htake := @takeAmount_text (some amount) rest h
        fun byte hbyte => ⟨(hrest byte hbyte).1, (hrest byte hbyte).2.1⟩
      rw [widthText] at htake
      simp [precisionText, takePrecision, htake]

/-- What may stand behind the amounts stops all that is read before it. -/
theorem stops (byte : UInt8) (h : isLength byte ∨ byte ∈ specifiers) :
    ¬ isDigit byte ∧ byte ≠ 42 ∧ byte ≠ 46 ∧ ¬ isFlag byte ∧ byte ≠ 37 := by
  have hall : ∀ byte ∈ lengthBytes ++ specifiers,
      ¬ isDigit byte ∧ byte ≠ 42 ∧ byte ≠ 46 ∧ ¬ isFlag byte ∧ byte ≠ 37 := by
    decide +kernel
  refine hall byte (List.mem_append.mpr ?_)
  rwa [isLength, decide_eq_true_eq] at h

theorem ne_of_isDigit {byte : UInt8} (h : isDigit byte) : byte ≠ 37 := by
  rintro rfl
  revert h
  decide

theorem not_isLength_of_mem_specifiers : ∀ byte ∈ specifiers, ¬ isLength byte := by
  decide +kernel

theorem isLength_of_mem : ∀ length ∈ lengths, ∀ byte ∈ length, isLength byte := by
  decide +kernel

section Directive

variable {dir : Directive}

/-- The bytes from the length on. -/
def Directive.ending (dir : Directive) : Bytes :=
  dir.length ++ [dir.specifier]

theorem Directive.WellFormed.head_ending (h : dir.WellFormed) (rest : Bytes) {byte : UInt8}
    (hbyte : (dir.ending ++ rest).head? = some byte) :
    isLength byte ∨ byte ∈ specifiers := by
  rw [Directive.ending] at hbyte
  cases hlength : dir.length with
  | nil =>
      rw [hlength] at hbyte
      obtain rfl : dir.specifier = byte := by simpa using hbyte
      exact .inr h.specifier
  | cons first length =>
      rw [hlength] at hbyte
      obtain rfl : first = byte := by simpa using hbyte
      exact .inl (isLength_of_mem _ h.length _ (by simp [hlength]))

theorem Directive.WellFormed.take_length (h : dir.WellFormed) (rest : Bytes) :
    (dir.ending ++ rest).takeWhile isLength = dir.length ∧
      (dir.ending ++ rest).dropWhile isLength = dir.specifier :: rest := by
  rw [Directive.ending, List.append_assoc]
  refine takeWhile_append_stop (isLength_of_mem _ h.length) fun byte hbyte => ?_
  obtain rfl : dir.specifier = byte := by simpa using hbyte
  exact not_isLength_of_mem_specifiers _ h.specifier

theorem Directive.WellFormed.take_precision (h : dir.WellFormed) (rest : Bytes) :
    takePrecision (precisionText dir.precision ++ (dir.ending ++ rest)) =
      (dir.precision, dir.ending ++ rest) := by
  refine takePrecision_text h.precision fun byte hbyte => ?_
  obtain ⟨hdigit, hstar, hpoint, -, -⟩ := stops byte (h.head_ending rest hbyte)
  exact ⟨hdigit, hstar, hpoint⟩

/-- The bytes from the precision on start with a point, or as the ending does. -/
theorem Directive.WellFormed.head_precision (h : dir.WellFormed) (rest : Bytes)
    {byte : UInt8} (hbyte :
      (precisionText dir.precision ++ (dir.ending ++ rest)).head? = some byte) :
    ¬ isDigit byte ∧ byte ≠ 42 ∧ ¬ isFlag byte ∧ byte ≠ 37 := by
  cases hprecision : dir.precision with
  | none =>
      rw [hprecision, precisionText, List.nil_append] at hbyte
      obtain ⟨hdigit, hstar, -, hflag, hpercent⟩ := stops byte (h.head_ending rest hbyte)
      exact ⟨hdigit, hstar, hflag, hpercent⟩
  | some amount =>
      obtain rfl : 46 = byte := by simpa [hprecision, precisionText] using hbyte
      decide

theorem Directive.WellFormed.take_width (h : dir.WellFormed) (rest : Bytes) :
    takeAmount (widthText dir.width ++
        (precisionText dir.precision ++ (dir.ending ++ rest))) =
      (dir.width, precisionText dir.precision ++ (dir.ending ++ rest)) := by
  refine takeAmount_text (fun amount hamount => (h.width amount hamount).1)
    fun byte hbyte => ?_
  obtain ⟨hdigit, hstar, -, -⟩ := h.head_precision rest hbyte
  exact ⟨hdigit, hstar⟩

theorem Directive.WellFormed.head_width (h : dir.WellFormed) (rest : Bytes)
    {byte : UInt8} (hbyte : (widthText dir.width ++
      (precisionText dir.precision ++ (dir.ending ++ rest))).head? = some byte) :
    ¬ isFlag byte ∧ byte ≠ 37 := by
  cases hwidth : dir.width with
  | none =>
      rw [hwidth, widthText, List.nil_append] at hbyte
      exact (h.head_precision rest hbyte).2.2
  | some amount =>
      obtain ⟨hwellFormed, hflag⟩ := h.width amount hwidth
      cases amount with
      | star =>
          obtain rfl : 42 = byte := by simpa [hwidth, widthText, Amount.text] using hbyte
          decide
      | digits text =>
          cases text with
          | nil => exact absurd rfl hwellFormed.1
          | cons first text =>
              obtain rfl : first = byte := by
                simpa [hwidth, widthText, Amount.text] using hbyte
              exact ⟨hflag first rfl,
                ne_of_isDigit (hwellFormed.2 first List.mem_cons_self)⟩

theorem Directive.WellFormed.take_flags (h : dir.WellFormed) (rest : Bytes) :
    (dir.body ++ rest).takeWhile isFlag = dir.flags ∧
      (dir.body ++ rest).dropWhile isFlag = widthText dir.width ++
        (precisionText dir.precision ++ (dir.ending ++ rest)) := by
  have hbody : dir.body ++ rest = dir.flags ++ (widthText dir.width ++
      (precisionText dir.precision ++ (dir.ending ++ rest))) := by
    simp [Directive.body, Directive.ending]
  rw [hbody]
  exact takeWhile_append_stop h.flags fun byte hbyte => (h.head_width rest hbyte).1

theorem takeDirective_body (h : dir.WellFormed) (rest : Bytes) :
    takeDirective (dir.body ++ rest) = some (dir, rest) := by
  obtain ⟨hflags, hafter⟩ := h.take_flags rest
  obtain ⟨hlength, hspecifier⟩ := h.take_length rest
  simp only [takeDirective, hflags, hafter, h.take_width, h.take_precision, hlength,
    hspecifier]
  rw [if_pos ⟨h.length, h.specifier⟩]

theorem Directive.WellFormed.head_body (h : dir.WellFormed) (rest : Bytes) :
    (dir.body ++ rest).head? ≠ some 37 := by
  intro hpercent
  cases hflags : dir.flags with
  | nil =>
      have hbody : dir.body ++ rest = widthText dir.width ++
          (precisionText dir.precision ++ (dir.ending ++ rest)) := by
        simp [Directive.body, Directive.ending, hflags]
      rw [hbody] at hpercent
      exact (h.head_width rest hpercent).2 rfl
  | cons flag flags =>
      obtain rfl : flag = 37 := by simpa [Directive.body, hflags] using hpercent
      exact absurd (h.flags 37 (by simp [hflags])) (by decide)

end Directive

theorem Token.text_length_pos (token : Token) : 0 < token.text.length := by
  cases token <;> simp [Token.text]

theorem parseFuel_text {tokens : List Token} (h : ∀ token ∈ tokens, token.WellFormed)
    {fuel : Nat} (hfuel : (text tokens).length ≤ fuel) :
    parseFuel fuel (text tokens) = some tokens := by
  induction tokens generalizing fuel with
  | nil => cases fuel <;> rfl
  | cons token tokens ih =>
      have htoken := h token List.mem_cons_self
      have hpos := token.text_length_pos
      rw [text_cons, List.length_append] at hfuel
      obtain ⟨fuel, rfl⟩ := Nat.exists_eq_succ_of_ne_zero (n := fuel) (by omega)
      have hrest := @ih (fun later hmem => h later (List.mem_cons_of_mem _ hmem)) fuel
        (by omega)
      rw [text_cons]
      cases token with
      | literal byte =>
          have hne : byte ≠ 37 := htoken
          rw [Token.text, List.singleton_append, parseFuel, if_pos hne, hrest]
          rfl
      | percent =>
          rw [Token.text, List.cons_append, List.singleton_append, parseFuel,
            if_neg (by simp), if_pos (by rfl), List.drop_one, List.tail_cons, hrest]
          rfl
      | directive dir =>
          rw [Token.text, List.cons_append, parseFuel, if_neg (by simp),
            if_neg (htoken.head_body _), takeDirective_body htoken]
          dsimp only
          rw [hrest]
          rfl

/-- The tokens of a text are those it was made of. -/
theorem parse_text {tokens : List Token} (h : ∀ token ∈ tokens, token.WellFormed) :
    parse (text tokens) = some tokens :=
  parseFuel_text h (Nat.le_refl _)

/-! ## Arguments -/

inductive Width where
  | byte
  | half
  | word
  | long
  deriving DecidableEq, Repr

def Width.bits : Width → Nat
  | .byte => 8
  | .half => 16
  | .word => 32
  | .long => 64

/-- The low bits, the others cleared. -/
def Width.truncate : Width → UInt64 → UInt64
  | .byte, bits => bits.toUInt8.toUInt64
  | .half, bits => bits.toUInt16.toUInt64
  | .word, bits => bits.toUInt32.toUInt64
  | .long, bits => bits

theorem Width.truncate_truncate {narrow wide : Width} (h : narrow.bits ≤ wide.bits)
    (bits : UInt64) : narrow.truncate (wide.truncate bits) = narrow.truncate bits := by
  apply UInt64.toNat_inj.mp
  cases narrow <;> cases wide <;>
    first
    | exact absurd h (by decide)
    | simp [Width.truncate]

/-- Numbers that agree on some low bits agree on fewer. -/
theorem Width.truncate_of_le {narrow wide : Width} (h : narrow.bits ≤ wide.bits)
    {bits given : UInt64} (hwide : wide.truncate bits = wide.truncate given) :
    narrow.truncate bits = narrow.truncate given := by
  rw [← Width.truncate_truncate h, hwide, Width.truncate_truncate h]

/-- An argument as it is passed: nothing is known of the bits beyond `width`. -/
inductive Value where
  | number (width : Width) (bits : UInt64)
  | real (bits : UInt64)
  | string (address : UInt64) (text : Bytes)
  deriving DecidableEq, Repr

inductive Kind where
  | number (width : Width)
  | real
  | string
  deriving DecidableEq, Repr

/-- What a directive looks at. -/
inductive Datum where
  | bits (bits : UInt64)
  | text (text : Bytes)
  deriving DecidableEq, Repr

def integerWidth (length : Bytes) : Option Width :=
  if length = [] then some .word
  else if length = [104, 104] then some .byte
  else if length = [104] then some .half
  else if length = [76] then none
  else some .long

/-- Wide strings and `long double` are left out. -/
def Directive.kind (dir : Directive) : Option Kind :=
  if dir.specifier = 115 then
    if dir.length = [] then some .string else none
  else if dir.specifier = 112 then
    if dir.length = [] then some (.number .long) else none
  else if dir.specifier = 99 then
    if dir.length = [] ∨ dir.length = [108] then some (.number .word) else none
  else if dir.specifier ∈ ([100, 105, 117, 111, 120, 88] : Bytes) then
    (integerWidth dir.length).map .number
  else if dir.length = [] ∨ dir.length = [108] then some .real
  else none

def Kind.read : Kind → Value → Option Datum
  | .number width, .number given bits =>
      if width.bits ≤ given.bits then some (.bits (width.truncate bits)) else none
  | .number width, .string address _ => some (.bits (width.truncate address))
  | .real, .real bits => some (.bits bits)
  | .string, .string _ text => some (.text text)
  | _, _ => none

/-- A dynamic width or precision is an `int`. -/
def Value.int? : Value → Option Int
  | .number .word bits => some bits.toUInt32.toInt32.toInt
  | _ => none

def digitsValue (text : Bytes) : Nat :=
  text.foldl (fun n byte => 10 * n + (byte.toNat - 48)) 0

/-- The number that an amount stands for, and the arguments behind it. -/
def takeValue : Option Amount → List Value → Option (Option Int × List Value)
  | none, values => some (none, values)
  | some (.digits text), values => some (some (digitsValue text), values)
  | some .star, value :: values => value.int?.map fun n => (some n, values)
  | some .star, [] => none

/-- An amount that is not left to an argument takes none. -/
theorem takeValue_of_ne {amount : Option Amount} (h : amount ≠ some .star)
    {values left : List Value} {n : Option Int}
    (hvalue : takeValue amount values = some (n, left)) :
    left = values ∧ ∀ given, takeValue amount given = some (n, given) := by
  cases amount with
  | none => cases hvalue; exact ⟨rfl, fun _ => rfl⟩
  | some amount =>
      cases amount with
      | star => exact absurd rfl h
      | digits text => cases hvalue; exact ⟨rfl, fun _ => rfl⟩

/-! ## Printing -/

/-- A string is cut at its precision, unless that is negative, and then padded. -/
def Directive.formatString (dir : Directive) (width precision : Option Int)
    (text : Bytes) : Bytes :=
  let shown :=
    match precision with
    | none => text
    | some n => if 0 ≤ n then text.take n.toNat else text
  let room := List.replicate ((width.getD 0).natAbs - shown.length) 32
  if 45 ∈ dir.flags ∨ width.getD 0 < 0 then shown ++ room else room ++ shown

section Printing

-- how the library prints a number, or a real number that is given by its bits
variable (formatNumber : Directive → Option Int → Option Int → UInt64 → Bytes)

def Directive.format (dir : Directive) (width precision : Option Int) :
    Datum → Bytes
  | .bits bits => formatNumber dir width precision bits
  | .text text => dir.formatString width precision text

/-- What is printed, and the arguments that are left. -/
def Directive.render (dir : Directive) (values : List Value) :
    Option (Bytes × List Value) :=
  (takeValue dir.width values).bind fun (width, values) =>
    (takeValue dir.precision values).bind fun (precision, values) =>
      match dir.kind, values with
      | some kind, value :: values =>
          (kind.read value).map fun datum =>
            (dir.format formatNumber width precision datum, values)
      | _, _ => none

def Token.render (values : List Value) : Token → Option (Bytes × List Value)
  | .literal byte => some ([byte], values)
  | .percent => some ([37], values)
  | .directive dir => dir.render formatNumber values

/-- Nothing is printed where the arguments do not suit the format. -/
def render : List Token → List Value → Option (Bytes × List Value)
  | [], values => some ([], values)
  | token :: tokens, values =>
      (token.render formatNumber values).bind fun (shown, values) =>
        (render tokens values).map fun (later, values) => (shown ++ later, values)

def fprintf (format : Bytes) (values : List Value) : Option Bytes :=
  (parse format).bind fun tokens => (render formatNumber tokens values).map Prod.fst

theorem render_append (front back : List Token) (values : List Value) :
    render formatNumber (front ++ back) values =
      (render formatNumber front values).bind fun (shown, values) =>
        (render formatNumber back values).map fun (later, values) =>
          (shown ++ later, values) := by
  induction front generalizing values with
  | nil => simp [render]
  | cons token front ih =>
      simp only [List.cons_append, render]
      cases token.render formatNumber values with
      | none => rfl
      | some result =>
          simp only [Option.bind_some, ih]
          cases render formatNumber front result.2 with
          | none => rfl
          | some shown =>
              simp only [Option.bind_some, Option.map_some]
              cases render formatNumber back shown.2 with
              | none => rfl
              | some later => simp

/-! ### How many arguments are taken -/

def amountArity (amount : Option Amount) : Nat :=
  if amount = some .star then 1 else 0

def Directive.arity (dir : Directive) : Nat :=
  amountArity dir.width + amountArity dir.precision + 1

def Token.arity : Token → Nat
  | .literal _ => 0
  | .percent => 0
  | .directive dir => dir.arity

def arity : List Token → Nat
  | [] => 0
  | token :: tokens => token.arity + arity tokens

theorem length_takeValue {amount : Option Amount} {values left : List Value}
    {n : Option Int} (h : takeValue amount values = some (n, left)) :
    values.length = left.length + amountArity amount := by
  cases amount with
  | none => cases h; rfl
  | some amount =>
      cases amount with
      | digits text => cases h; rfl
      | star =>
          cases values with
          | nil => cases h
          | cons value values =>
              obtain ⟨n, -, heq⟩ := Option.map_eq_some_iff.mp h
              cases heq
              rfl

theorem Directive.render_eq_some {dir : Directive} {values left : List Value}
    {shown : Bytes} (h : dir.render formatNumber values = some (shown, left)) :
    ∃ width behindWidth precision value kind datum,
      takeValue dir.width values = some (width, behindWidth) ∧
      takeValue dir.precision behindWidth = some (precision, value :: left) ∧
      dir.kind = some kind ∧ kind.read value = some datum ∧
      shown = dir.format formatNumber width precision datum := by
  obtain ⟨⟨width, behindWidth⟩, hwidth, h⟩ := Option.bind_eq_some_iff.mp h
  obtain ⟨⟨precision, behind⟩, hprecision, h⟩ := Option.bind_eq_some_iff.mp h
  dsimp only at h hprecision
  split at h
  · next kind value values hkind =>
      obtain ⟨datum, hread, heq⟩ := Option.map_eq_some_iff.mp h
      cases heq
      exact ⟨width, behindWidth, precision, value, kind, datum, hwidth, hprecision, hkind,
        hread, rfl⟩
  · cases h

theorem length_render_directive {dir : Directive} {values left : List Value}
    {shown : Bytes} (h : dir.render formatNumber values = some (shown, left)) :
    values.length = left.length + dir.arity := by
  obtain ⟨_, _, _, _, _, _, hwidth, hprecision, -⟩ := dir.render_eq_some formatNumber h
  have hwidthLength := length_takeValue hwidth
  have hprecisionLength := length_takeValue hprecision
  rw [List.length_cons] at hprecisionLength
  rw [Directive.arity]
  omega

/-- Each star and each directive takes one argument, and nothing else takes any. -/
theorem length_render {tokens : List Token} {values left : List Value} {shown : Bytes}
    (h : render formatNumber tokens values = some (shown, left)) :
    values.length = left.length + arity tokens := by
  induction tokens generalizing values shown with
  | nil => cases h; rfl
  | cons token tokens ih =>
      obtain ⟨⟨front, behind⟩, hfront, h⟩ := Option.bind_eq_some_iff.mp h
      obtain ⟨⟨back, left'⟩, hback, heq⟩ := Option.map_eq_some_iff.mp h
      cases heq
      have htokens := ih hback
      rw [arity]
      cases token with
      | literal byte => cases hfront; rw [Token.arity]; omega
      | percent => cases hfront; rw [Token.arity]; omega
      | directive dir =>
          have hdir := length_render_directive formatNumber hfront
          rw [Token.arity]
          omega

/-- What a token without an argument prints. -/
def Token.shown : Token → Bytes
  | .literal byte => [byte]
  | .percent => [37]
  | .directive _ => []

/-- The token takes no argument. -/
def Token.Silent (token : Token) : Prop :=
  ∀ dir, token ≠ .directive dir

theorem Token.Silent.render {token : Token} (h : token.Silent) (values : List Value) :
    token.render formatNumber values = some (token.shown, values) := by
  cases token with
  | literal byte => rfl
  | percent => rfl
  | directive dir => exact absurd rfl (h dir)

theorem render_silent {tokens : List Token} (h : ∀ token ∈ tokens, token.Silent)
    (values : List Value) :
    render formatNumber tokens values = some (tokens.flatMap Token.shown, values) := by
  induction tokens with
  | nil => rfl
  | cons token tokens ih =>
      have htoken := h token List.mem_cons_self
      have hrest := ih fun later hmem => h later (List.mem_cons_of_mem _ hmem)
      simp only [Format.render, htoken.render, Option.bind_some, hrest]
      rfl

/-- A directive among tokens that take no argument. -/
theorem render_around {front back : List Token}
    (hfront : ∀ token ∈ front, token.Silent) (hback : ∀ token ∈ back, token.Silent)
    (dir : Directive)
    (values : List Value) :
    render formatNumber (front ++ .directive dir :: back) values =
      (dir.render formatNumber values).map fun (shown, left) =>
        (front.flatMap Token.shown ++ (shown ++ back.flatMap Token.shown), left) := by
  rw [render_append, render_silent _ hfront, Option.bind_some]
  simp only [render, Token.render]
  cases dir.render formatNumber values with
  | none => rfl
  | some result => simp [render_silent _ hback]

theorem fprintf_text {tokens : List Token} (h : ∀ token ∈ tokens, token.WellFormed)
    (values : List Value) :
    fprintf formatNumber (text tokens) values =
      (render formatNumber tokens values).map Prod.fst := by
  rw [fprintf, parse_text h]
  rfl

end Printing

end TinyBpfLog.Foundation.Format
