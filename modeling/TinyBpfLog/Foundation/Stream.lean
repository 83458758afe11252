import Mathlib.Data.List.Basic

/-!
# Streams of records

A reader takes one record after the other off the front of its input, until the
input is used up.  Records that are read independently of what follows them can be
put one behind the other: the events of each are read in turn.
-/

namespace TinyBpfLog.Foundation.Stream

variable {S B E : Type} (step : S → List B → Option (List E × S × List B))

/-- What all of the input comes to; every step takes something of it. -/
def run : Nat → S → List B → Option (List E × S)
  | _, s, [] => some ([], s)
  | 0, _, _ :: _ => none
  | fuel + 1, s, first :: input =>
      (step s (first :: input)).bind fun (events, s, rest) =>
        (run fuel s rest).map fun (later, s) => (events ++ later, s)

/-- The records in `bytes` are read as `events`, whatever follows them. -/
inductive Reads : S → List B → List E → S → Prop
  | nil (s : S) : Reads s [] [] s
  | cons {s t u : S} {bytes more : List B} {events later : List E} (hne : bytes ≠ [])
      (hstep : ∀ rest, step s (bytes ++ rest) = some (events, t, rest))
      (hmore : Reads t more later u) : Reads s (bytes ++ more) (events ++ later) u

variable {step}

theorem Reads.single {s t : S} {bytes : List B} {events : List E} (hne : bytes ≠ [])
    (hstep : ∀ rest, step s (bytes ++ rest) = some (events, t, rest)) :
    Reads step s bytes events t := by
  have hreads := Reads.cons hne hstep (.nil t)
  rwa [List.append_nil, List.append_nil] at hreads

theorem Reads.append {s t u : S} {front back : List B} {events later : List E}
    (hfront : Reads step s front events t) (hback : Reads step t back later u) :
    Reads step s (front ++ back) (events ++ later) u := by
  induction hfront with
  | nil s => exact hback
  | cons hne hstep _ ih =>
      rw [List.append_assoc, List.append_assoc]
      exact .cons hne hstep (ih hback)

theorem run_nil (fuel : Nat) (s : S) : run step fuel s [] = some ([], s) := by
  cases fuel <;> rfl

theorem run_step {s t : S} {bytes rest : List B} {events : List E} (hne : bytes ≠ [])
    (hstep : step s bytes = some (events, t, rest)) (fuel : Nat) :
    run step (fuel + 1) s bytes =
      (run step fuel t rest).map fun (later, u) => (events ++ later, u) := by
  cases bytes with
  | nil => exact absurd rfl hne
  | cons first bytes => rw [run, hstep, Option.bind_some]

theorem Reads.run {s t : S} {bytes : List B} {events : List E}
    (h : Reads step s bytes events t) {fuel : Nat} (hfuel : bytes.length ≤ fuel) :
    run step fuel s bytes = some (events, t) := by
  induction h generalizing fuel with
  | nil s => exact run_nil fuel s
  | @cons s t u bytes more events later hne hstep _ ih =>
      have hpos := List.length_pos_iff.mpr hne
      rw [List.length_append] at hfuel
      obtain ⟨fuel, rfl⟩ := Nat.exists_eq_succ_of_ne_zero (by omega : fuel ≠ 0)
      have hne : bytes ++ more ≠ [] := fun hnil => hne (List.append_eq_nil_iff.mp hnil).1
      rw [run_step hne (hstep more), ih (by omega)]
      rfl

end TinyBpfLog.Foundation.Stream
