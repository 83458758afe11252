import Mathlib.Data.List.Basic
import Mathlib.Tactic.Common

/-!
# Slices of an array

The cells of an array between two positions.  Slices that meet are joined, and a
write beside a slice leaves it as it is.
-/

namespace TinyBpfLog.Foundation

variable {α : Type*}

/-- The cells from `first` on, those from `last` on left out. -/
def slice (cells : List α) (first last : Nat) : List α :=
  (cells.take last).drop first

theorem length_slice (cells : List α) {first last : Nat} (h : last ≤ cells.length) :
    (slice cells first last).length = last - first := by
  rw [slice, List.length_drop, List.length_take, Nat.min_eq_left h]

theorem slice_of_le (cells : List α) {first last : Nat} (h : last ≤ first) :
    slice cells first last = [] := by
  apply List.drop_eq_nil_of_le
  rw [List.length_take]
  omega

theorem slice_append_slice (cells : List α) {first middle last : Nat}
    (h₁ : first ≤ middle) (h₂ : middle ≤ last) :
    slice cells first middle ++ slice cells middle last = slice cells first last := by
  obtain ⟨n, rfl⟩ := Nat.exists_eq_add_of_le h₁
  obtain ⟨m, rfl⟩ := Nat.exists_eq_add_of_le h₂
  simp only [slice, List.drop_take]
  rw [Nat.add_sub_cancel_left, Nat.add_sub_cancel_left, Nat.add_assoc,
    Nat.add_sub_cancel_left, ← List.drop_drop, List.take_add]

theorem slice_set (cells : List α) {index first last : Nat} (value : α)
    (h : index < first ∨ last ≤ index) :
    slice (cells.set index value) first last = slice cells first last := by
  rcases h with h | h
  · rw [slice, slice, List.take_set, List.drop_set_of_lt h]
  · rw [slice, slice, List.take_set_of_le h]

theorem slice_succ {cells : List α} {first last : Nat} (h : first ≤ last)
    (hlast : last < cells.length) :
    slice cells first (last + 1) = slice cells first last ++ [cells[last]] := by
  rw [slice, List.take_succ_eq_append_getElem hlast,
    List.drop_append_of_le_length (by rw [List.length_take]; omega), slice]

end TinyBpfLog.Foundation
