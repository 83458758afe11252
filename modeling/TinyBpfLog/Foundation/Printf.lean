import Mathlib.Algebra.Group.Nat.Defs
import Mathlib.Data.List.Basic
import TinyBpfLog.Foundation.Bytes

/-!
# Formatted output

A format is parsed into literal bytes and directives, and each directive prints
one argument.  An argument that does not suit its directive is taken by its
bits, at the width that the directive has.
-/

namespace TinyBpfLog.Foundation.Printf

inductive Specifier where
  | string
  | signed
  | unsigned
  | hex
  | fixed
  deriving DecidableEq, Repr

structure Layout where
  left : Bool := false
  width : Nat := 0
  precision : Option Nat := none
  long : Bool := false
  deriving DecidableEq, Repr

inductive Piece where
  | literal (byte : UInt8)
  | directive (layout : Layout) (specifier : Specifier)
  deriving DecidableEq, Repr

/-- `digits` gives the text of a real number at a precision. -/
inductive Argument where
  | pointer (address : UInt64) (text : Bytes)
  | word (bits : UInt64)
  | real (digits : Nat → Bytes)

/-! ## Formats -/

def specifier? (byte : UInt8) : Option Specifier :=
  if byte = 115 then some .string
  else if byte = 100 then some .signed
  else if byte = 117 then some .unsigned
  else if byte = 120 then some .hex
  else if byte = 102 then some .fixed
  else none

/-- A digit of the precision, or before the point of the width. -/
def Layout.digit (layout : Layout) (digit : Nat) : Layout :=
  match layout.precision with
  | none => { layout with width := 10 * layout.width + digit }
  | some precision => { layout with precision := some (10 * precision + digit) }

/-- The layout is that of the directive that has begun, if one has. -/
def parseFrom : Option Layout → Bytes → List Piece
  | _, [] => []
  | none, byte :: bytes =>
      if byte = 37 then parseFrom (some {}) bytes
      else .literal byte :: parseFrom none bytes
  | some layout, byte :: bytes =>
      if byte = 45 then parseFrom (some { layout with left := true }) bytes
      else if byte = 46 then
        parseFrom (some { layout with precision := some 0 }) bytes
      else if 48 ≤ byte ∧ byte ≤ 57 then
        parseFrom (some (layout.digit (byte.toNat - 48))) bytes
      else if byte = 108 then parseFrom (some { layout with long := true }) bytes
      else
        match specifier? byte with
        | some specifier => .directive layout specifier :: parseFrom none bytes
        | none => .literal byte :: parseFrom none bytes

def parse (format : String) : List Piece := parseFrom none (ascii format)

/-! ## Arguments -/

def Argument.bits : Argument → UInt64
  | .pointer address _ => address
  | .word bits => bits
  | .real _ => 0

def decimal (n : Nat) : Bytes := ascii (toString n)

def Layout.signed (layout : Layout) (bits : UInt64) : Int :=
  if layout.long then bits.toInt64.toInt else bits.toUInt32.toInt32.toInt

def Layout.unsigned (layout : Layout) (bits : UInt64) : Nat :=
  if layout.long then bits.toNat else bits.toUInt32.toNat

def Layout.convert (layout : Layout) : Specifier → Argument → Bytes
  | .string, .pointer _ text =>
      match layout.precision with
      | none => text
      | some precision => text.take precision
  | .string, _ => []
  | .signed, argument => ascii (toString (layout.signed argument.bits))
  | .unsigned, argument => decimal (layout.unsigned argument.bits)
  | .hex, argument =>
      ascii (String.ofList (Nat.toDigits 16 (layout.unsigned argument.bits)))
  | .fixed, .real digits => digits (layout.precision.getD 6)
  | .fixed, _ => []

def Layout.pad (layout : Layout) (text : Bytes) : Bytes :=
  let room := List.replicate (layout.width - text.length) 32
  if layout.left then text ++ room else room ++ text

def format : List Piece → List Argument → Bytes
  | [], _ => []
  | .literal byte :: pieces, arguments => byte :: format pieces arguments
  | .directive layout specifier :: pieces, argument :: arguments =>
      layout.pad (layout.convert specifier argument) ++ format pieces arguments
  | .directive _ _ :: pieces, [] => format pieces []

def sprintf (text : String) (arguments : List Argument) : Bytes :=
  format (parse text) arguments

/-- The string that is left in a buffer of `size` bytes. -/
def snprintf (size : Nat) (text : String) (arguments : List Argument) : Bytes :=
  (sprintf text arguments).take (size - 1)

/-! ## Directives without a layout -/

@[simp] theorem pad_plain (text : Bytes) : ({} : Layout).pad text = text := by
  simp [Layout.pad]

@[simp] theorem convert_plain_string (address : UInt64) (text : Bytes) :
    ({} : Layout).convert .string (.pointer address text) = text := rfl

@[simp] theorem convert_plain_unsigned (argument : Argument) :
    ({} : Layout).convert .unsigned argument =
      decimal argument.bits.toUInt32.toNat := rfl

theorem decimal_length_le {n k : Nat} (hk : 0 < k) (h : n < 10 ^ k) :
    (decimal n).length ≤ k := by
  simp only [decimal, ascii, Nat.toString_eq_repr, Nat.toList_repr,
    List.length_map]
  exact (Nat.length_toDigits_le_iff (by decide) hk).mpr h

theorem zero_notMem_decimal (n : Nat) : (0 : UInt8) ∉ decimal n := by
  intro h
  simp only [decimal, ascii, Nat.toString_eq_repr, Nat.toList_repr,
    List.mem_map] at h
  obtain ⟨c, hc, hzero⟩ := h
  have hdigit := Nat.isDigit_of_mem_toDigits (by decide) (by decide) hc
  have hrange : 48 ≤ c.toNat ∧ c.toNat ≤ 57 := by
    simpa [Char.isDigit, UInt32.le_iff_toNat_le] using hdigit
  have hsmall : c.toNat.toUInt8.toNat = c.toNat := Nat.mod_eq_of_lt (by omega)
  rw [← UInt8.toNat_inj, hsmall] at hzero
  have hnone : c.toNat = 0 := hzero
  omega

theorem ascii_toString_int (x : Int) :
    ascii (toString x) =
      if 0 ≤ x then decimal x.natAbs else 45 :: decimal x.natAbs := by
  cases x with
  | ofNat n => rfl
  | negSucc n =>
      have hsign : toString (Int.negSucc n) = "-" ++ toString (n + 1) := rfl
      rw [if_neg (by omega), hsign, ascii, String.toList_append, List.map_append]
      rfl

theorem ascii_toString_int_length_le {x : Int} {k : Nat} (hk : 0 < k)
    (h : x.natAbs < 10 ^ k) : (ascii (toString x)).length ≤ k + 1 := by
  have hdigits := decimal_length_le hk h
  rw [ascii_toString_int]
  split
  · exact hdigits.trans (Nat.le_succ k)
  · exact Nat.succ_le_succ hdigits

theorem zero_notMem_ascii_toString_int (x : Int) :
    (0 : UInt8) ∉ ascii (toString x) := by
  have hdigits := zero_notMem_decimal x.natAbs
  rw [ascii_toString_int]
  split <;> simp [hdigits]

/-! ## Formats with plain strings -/

/-- The texts of a format, with a plain `%s` between each two. -/
def stringPieces : List String → List Piece
  | [] => []
  | [text] => (ascii text).map .literal
  | text :: texts =>
      (ascii text).map .literal ++ .directive {} .string :: stringPieces texts

@[simp] theorem format_literals (bytes : Bytes) (pieces : List Piece)
    (arguments : List Argument) :
    format (bytes.map .literal ++ pieces) arguments =
      bytes ++ format pieces arguments := by
  induction bytes with
  | nil => rfl
  | cons byte bytes ih =>
      rw [List.map_cons, List.cons_append, format, ih, List.cons_append]

theorem format_stringPieces_last (text : String) (arguments : List Argument) :
    format (stringPieces [text]) arguments = ascii text := by
  have hformat := format_literals (ascii text) [] arguments
  rw [List.append_nil, format, List.append_nil] at hformat
  exact hformat

theorem format_stringPieces_cons (text next : String) (texts : List String)
    (address : UInt64) (string : Bytes) (arguments : List Argument) :
    format (stringPieces (text :: next :: texts)) (.pointer address string :: arguments) =
      ascii text ++ (string ++ format (stringPieces (next :: texts)) arguments) := by
  rw [stringPieces, format_literals, format, convert_plain_string, pad_plain]
  exact fun h => List.cons_ne_nil _ _ h

/-- Nothing is cut from a text that fits, its NUL included. -/
theorem snprintf_of_lt {size : Nat} {text : String} {arguments : List Argument}
    (h : (sprintf text arguments).length < size) :
    snprintf size text arguments = sprintf text arguments :=
  List.take_of_length_le (Nat.le_sub_one_of_lt h)

end TinyBpfLog.Foundation.Printf
