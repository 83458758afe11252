import TinyBpfLog.Foundation.Bytes

/-!
# Strings joined in place

Tokens are appended to a string with a separator before each but the first.  The
string tells by itself whether it is empty, so the tokens must not be.  In an
array of a fixed size each `strcat` may write behind the end.
-/

namespace TinyBpfLog.Foundation

def joinFrom (sep : Bytes) : List Bytes → Bytes → Bytes
  | [], str => str
  | token :: tokens, str =>
      joinFrom sep tokens ((if str = [] then str else str ++ sep) ++ token)

/--
`strcat(str, source)` in an array of `size` bytes, or `none` when its terminator
is written behind the array.
-/
def strcat (size : Nat) (str source : Bytes) : Option Bytes :=
  if str.length + source.length < size then some (str ++ source) else none

def joinIn (size : Nat) (sep : Bytes) : List Bytes → Bytes → Option Bytes
  | [], str => some str
  | token :: tokens, str => do
      let str ← if str = [] then some str else strcat size str sep
      let str ← strcat size str token
      joinIn size sep tokens str

/-- Room for the tokens, each with a separator. -/
def joinLength (sep : Bytes) : List Bytes → Nat
  | [] => 0
  | token :: tokens => sep.length + token.length + joinLength sep tokens

@[simp] theorem joinLength_cons (sep token : Bytes) (tokens : List Bytes) :
    joinLength sep (token :: tokens) =
      sep.length + token.length + joinLength sep tokens := rfl

theorem joinLength_le_of_sublist (sep : Bytes) {tokens more : List Bytes}
    (h : tokens.Sublist more) : joinLength sep tokens ≤ joinLength sep more := by
  induction h with
  | slnil => exact Nat.le_refl _
  | cons token _ ih => exact ih.trans (Nat.le_add_left _ _)
  | cons_cons token _ ih => exact Nat.add_le_add_left ih _

theorem strcat_of_lt {size : Nat} {str source : Bytes}
    (h : str.length + source.length < size) :
    strcat size str source = some (str ++ source) := if_pos h

/-- With room for all tokens no `strcat` writes behind the array. -/
theorem joinIn_eq_some {size : Nat} {sep : Bytes} {tokens : List Bytes}
    {str : Bytes} (h : str.length + joinLength sep tokens < size) :
    joinIn size sep tokens str = some (joinFrom sep tokens str) ∧
      (joinFrom sep tokens str).length < size := by
  induction tokens generalizing str with
  | nil => exact ⟨rfl, h⟩
  | cons token tokens ih =>
      rw [joinLength_cons] at h
      by_cases hstr : str = []
      · subst hstr
        rw [List.length_nil] at h
        have htoken : strcat size [] token = some token := strcat_of_lt (by simp; omega)
        simp only [joinIn, joinFrom, if_true, Option.bind_eq_bind, Option.bind_some,
          htoken, List.nil_append]
        exact ih (by omega)
      · have hsep : strcat size str sep = some (str ++ sep) := strcat_of_lt (by omega)
        have htoken : strcat size (str ++ sep) token = some (str ++ sep ++ token) :=
          strcat_of_lt (by rw [List.length_append]; omega)
        simp only [joinIn, joinFrom, if_neg hstr, Option.bind_eq_bind, hsep,
          Option.bind_some, htoken]
        refine ih ?_
        rw [List.length_append, List.length_append]
        omega

theorem joinFrom_append (sep : Bytes) (tokens more : List Bytes) (str : Bytes) :
    joinFrom sep (tokens ++ more) str =
      joinFrom sep more (joinFrom sep tokens str) := by
  induction tokens generalizing str with
  | nil => rfl
  | cons token tokens ih => rw [List.cons_append, joinFrom, ih, joinFrom]

theorem length_joinFrom_concat (sep : Bytes) (tokens : List Bytes) (str : Bytes)
    {token : Bytes} (h : token ≠ []) :
    (joinFrom sep tokens str).length <
      (joinFrom sep (tokens ++ [token]) str).length := by
  have hpos : 0 < token.length := List.length_pos_iff.mpr h
  rw [joinFrom_append, joinFrom, joinFrom]
  split
  · rw [List.length_append]
    omega
  · rw [List.length_append, List.length_append]
    omega

theorem joinFrom_of_ne_nil (sep : Bytes) (tokens : List Bytes) {str : Bytes}
    (hstr : str ≠ []) : joinFrom sep tokens str = sep.intercalate (str :: tokens) := by
  induction tokens generalizing str with
  | nil => exact List.intercalate_singleton.symm
  | cons token tokens ih =>
      rw [joinFrom, if_neg hstr, ih (by simp [hstr])]
      cases tokens <;> simp [List.intercalate_cons_cons]

/-- The tokens are joined as `intercalate` joins them. -/
theorem joinFrom_nil {sep : Bytes} {tokens : List Bytes}
    (h : ∀ token ∈ tokens, token ≠ []) :
    joinFrom sep tokens [] = sep.intercalate tokens := by
  cases tokens with
  | nil => rfl
  | cons token tokens =>
      rw [joinFrom, if_pos rfl, List.nil_append]
      exact joinFrom_of_ne_nil sep tokens (h token List.mem_cons_self)

theorem notMem_joinFrom {c : UInt8} {sep : Bytes} (hsep : c ∉ sep)
    {tokens : List Bytes} (htokens : ∀ token ∈ tokens, c ∉ token) {str : Bytes}
    (hstr : c ∉ str) : c ∉ joinFrom sep tokens str := by
  induction tokens generalizing str with
  | nil => exact hstr
  | cons token tokens ih =>
      have htoken := htokens token List.mem_cons_self
      refine ih (fun later hlater => htokens later (List.mem_cons_of_mem _ hlater)) ?_
      split
      · simp [hstr, htoken]
      · simp [hstr, hsep, htoken]

end TinyBpfLog.Foundation
