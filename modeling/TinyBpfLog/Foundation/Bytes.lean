import Mathlib.Data.List.Basic
import Mathlib.Data.List.TakeWhile
import Mathlib.Tactic.Common

/-!
# Byte strings

Both programs exchange raw bytes: a Go `string`, a C++ `std::string` and a
socket buffer are all lists of bytes here.  Only the few library operations on
them that the protocol code calls are defined.
-/

namespace TinyBpfLog.Foundation

abbrev Bytes := List UInt8

/-- The bytes of an ASCII literal of the source. -/
def ascii (text : String) : Bytes :=
  text.toList.map fun c => c.toNat.toUInt8

/-- The `std::string` made from a character buffer: the bytes before the first NUL. -/
def cString (buffer : Bytes) : Bytes :=
  buffer.takeWhile (· ≠ 0)

def trimSuffix (text suffix : Bytes) : Bytes :=
  if suffix.isSuffixOf text then text.take (text.length - suffix.length)
  else text

@[simp] theorem cString_nil : cString [] = [] := rfl

theorem cString_cons_of_ne {b : UInt8} (hb : b ≠ 0) (bytes : Bytes) :
    cString (b :: bytes) = b :: cString bytes := by
  simp [cString, hb]

theorem cString_append {front : Bytes} (h : (0 : UInt8) ∉ front)
    (rest : Bytes) : cString (front ++ rest) = front ++ cString rest := by
  induction front with
  | nil => rfl
  | cons b front ih =>
      simp only [List.mem_cons, not_or] at h
      rw [List.cons_append, cString_cons_of_ne (Ne.symm h.1), ih h.2,
        List.cons_append]

theorem cString_eq_self {bytes : Bytes} (h : (0 : UInt8) ∉ bytes) :
    cString bytes = bytes := by
  simpa using cString_append h []

theorem cString_append_zero (bytes rest : Bytes) :
    cString (bytes ++ 0 :: rest) = cString bytes := by
  induction bytes with
  | nil => simp [cString]
  | cons b bytes ih =>
      by_cases hb : b = 0
      · simp [cString, hb]
      · rw [List.cons_append, cString_cons_of_ne hb, cString_cons_of_ne hb, ih]

theorem exists_eq_cString_append {bytes : Bytes} (h : (0 : UInt8) ∈ bytes) :
    ∃ rest, bytes = cString bytes ++ 0 :: rest := by
  induction bytes with
  | nil => cases h
  | cons b bytes ih =>
      by_cases hb : b = 0
      · exact ⟨bytes, by simp [cString, hb]⟩
      · obtain ⟨rest, hrest⟩ := ih ((List.mem_cons.mp h).resolve_left (Ne.symm hb))
        refine ⟨rest, ?_⟩
        rw [cString_cons_of_ne hb, List.cons_append, ← hrest]

theorem zero_notMem_cString (bytes : Bytes) : (0 : UInt8) ∉ cString bytes := by
  intro h
  simpa using List.mem_takeWhile_imp h

theorem trimSuffix_eq_self {text suffix : Bytes}
    (h : ¬ suffix <:+ text) : trimSuffix text suffix = text := by
  simp [trimSuffix, h]

theorem trimSuffix_append_self (text suffix : Bytes) :
    trimSuffix (text ++ suffix) suffix = text := by
  simp [trimSuffix]

/-- Trimming one byte looks at the last byte only. -/
theorem trimSuffix_singleton_cons {b c : UInt8} {text : Bytes}
    (h : text ≠ [] ∨ b ≠ c) :
    trimSuffix (b :: text) [c] = b :: trimSuffix text [c] := by
  by_cases hsuffix : [c] <:+ text
  · obtain ⟨front, rfl⟩ := hsuffix
    rw [← List.cons_append, trimSuffix_append_self, trimSuffix_append_self]
  · have hcons : ¬ [c] <:+ b :: text := by
      rw [List.suffix_cons_iff]
      rintro (heq | htail)
      · simp only [List.cons.injEq] at heq
        rcases h with h | h
        · exact h heq.2.symm
        · exact h heq.1.symm
      · exact hsuffix htail
    rw [trimSuffix_eq_self hsuffix, trimSuffix_eq_self hcons]

theorem trimSuffix_singleton_append (front : Bytes) {text : Bytes} {c : UInt8}
    (h : text ≠ []) :
    trimSuffix (front ++ text) [c] = front ++ trimSuffix text [c] := by
  induction front with
  | nil => rfl
  | cons b front ih =>
      rw [List.cons_append, trimSuffix_singleton_cons, ih, List.cons_append]
      exact Or.inl (by simp [h])

theorem trimSuffix_length_le (text suffix : Bytes) :
    (trimSuffix text suffix).length ≤ text.length := by
  unfold trimSuffix
  split <;> simp

end TinyBpfLog.Foundation
