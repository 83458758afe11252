import Mathlib.Data.List.Basic
import Mathlib.Data.List.DropRight
import Mathlib.Data.List.TakeWhile
import Mathlib.Tactic.Common

/-!
# Cutting a list at maximal runs of separators

`splitRuns p` cuts a list at every maximal run of elements satisfying `p`.  A
leading or trailing run leaves an empty first or last token, and the empty list
has one empty token.  (Cutting at every single separator is `List.splitOnP`.)
-/

namespace TinyBpfLog.Foundation

variable {α : Type*} {p : α → Bool}

/-- `inRun` says that the previous element was a separator. -/
def splitRunsFrom (p : α → Bool) : Bool → List α → List (List α)
  | _, [] => [[]]
  | inRun, x :: xs =>
      if p x then
        if inRun then splitRunsFrom p true xs
        else [] :: splitRunsFrom p true xs
      else (splitRunsFrom p false xs).modifyHead (x :: ·)

def splitRuns (p : α → Bool) (xs : List α) : List (List α) :=
  splitRunsFrom p false xs

@[simp] theorem splitRuns_nil : splitRuns p [] = [[]] := rfl

theorem splitRunsFrom_true (xs : List α) :
    splitRunsFrom p true xs = splitRuns p (xs.dropWhile p) := by
  induction xs with
  | nil => rfl
  | cons x xs ih =>
      by_cases hx : p x
      · simp [splitRunsFrom, hx, ih]
      · simp [splitRunsFrom, splitRuns, hx]

theorem splitRuns_cons_sep {x : α} (hx : p x) (xs : List α) :
    splitRuns p (x :: xs) = [] :: splitRuns p (xs.dropWhile p) := by
  simp [splitRuns, splitRunsFrom, hx, splitRunsFrom_true]

theorem splitRuns_cons_of_not {x : α} (hx : p x = false) (xs : List α) :
    splitRuns p (x :: xs) = (splitRuns p xs).modifyHead (x :: ·) := by
  simp [splitRuns, splitRunsFrom, hx]

theorem splitRuns_ne_nil (xs : List α) : splitRuns p xs ≠ [] := by
  induction xs with
  | nil => simp
  | cons x xs ih =>
      by_cases hx : p x
      · simp [splitRuns_cons_sep hx]
      · rw [splitRuns_cons_of_not (by simpa using hx)]
        simpa using ih

theorem splitRuns_of_forall_not {xs : List α} (h : ∀ x ∈ xs, p x = false) :
    splitRuns p xs = [xs] := by
  induction xs with
  | nil => rfl
  | cons x xs ih =>
      rw [splitRuns_cons_of_not (h x (by simp)),
        ih (fun y hy => h y (by simp [hy]))]
      rfl

/-- The first token ends at the first separator; the rest of its run is skipped. -/
theorem splitRuns_append_sep {front : List α} (h : ∀ x ∈ front, p x = false)
    {x : α} (hx : p x) (rest : List α) :
    splitRuns p (front ++ x :: rest) =
      front :: splitRuns p (rest.dropWhile p) := by
  induction front with
  | nil => exact splitRuns_cons_sep hx rest
  | cons y front ih =>
      rw [List.cons_append, splitRuns_cons_of_not (h y (by simp)),
        ih (fun z hz => h z (by simp [hz]))]
      rfl

/-! ## Reading a split backwards -/

theorem eq_of_splitRuns_singleton {xs token : List α}
    (h : splitRuns p xs = [token]) : xs = token := by
  induction xs generalizing token with
  | nil => simpa using h
  | cons x xs ih =>
      by_cases hx : p x
      · rw [splitRuns_cons_sep hx] at h
        exact absurd (List.cons.inj h).2 (splitRuns_ne_nil _)
      · rw [splitRuns_cons_of_not (by simpa using hx)] at h
        cases hsplit : splitRuns p xs with
        | nil => exact absurd hsplit (splitRuns_ne_nil xs)
        | cons first others =>
            rw [hsplit, List.modifyHead_cons] at h
            obtain ⟨rfl, rfl⟩ := List.cons.inj h
            rw [ih hsplit]

theorem length_splitRuns_le (xs : List α) :
    (splitRuns p xs).length ≤ xs.countP p + 1 := by
  have hfrom : ∀ inRun, (splitRunsFrom p inRun xs).length ≤ xs.countP p + 1 := by
    induction xs with
    | nil => intro inRun; simp [splitRunsFrom]
    | cons x xs ih =>
        intro inRun
        by_cases hx : p x
        · have hrest := ih true
          cases inRun <;> simp [splitRunsFrom, hx] <;> omega
        · simpa [splitRunsFrom, hx] using ih false
  exact hfrom false

/-! ## Parts of a separated list -/

/-- What follows a separator, if the first separator is known. -/
theorem after_separator {sep : α} {first rest front after : List α}
    (hfirst : sep ∉ first)
    (h : first ++ sep :: rest = front ++ sep :: after) :
    after = rest ∨ ∃ more, rest = more ++ sep :: after := by
  rcases List.append_eq_append_iff.mp h with
    ⟨more, rfl, hrest⟩ | ⟨more, rfl, hrest⟩
  · cases more with
    | nil =>
        simp only [List.nil_append, List.cons.injEq, true_and] at hrest
        exact .inl hrest.symm
    | cons x more =>
        obtain ⟨-, hrest⟩ := List.cons.inj hrest
        exact .inr ⟨more, hrest⟩
  · cases more with
    | nil =>
        simp only [List.nil_append, List.cons.injEq, true_and] at hrest
        exact .inl hrest
    | cons x more =>
        obtain ⟨rfl, -⟩ := List.cons.inj hrest
        simp at hfirst

/-- A part of a list of three tokens that has both separators has the middle. -/
theorem part_of_three [DecidableEq α] {sep : α}
    {first mid last before part after : List α} (hfirst : sep ∉ first)
    (hmid : sep ∉ mid) (hlast : sep ∉ last)
    (h : before ++ (part ++ after) = first ++ sep :: (mid ++ sep :: last))
    (htwo : 2 ≤ part.count sep) :
    ∃ front back, first = before ++ front ∧ last = back ++ after ∧
      part = front ++ sep :: (mid ++ sep :: back) := by
  have hcount := congrArg (List.count sep) h
  simp only [List.count_append, List.count_cons_self,
    List.count_eq_zero_of_not_mem hfirst, List.count_eq_zero_of_not_mem hmid,
    List.count_eq_zero_of_not_mem hlast] at hcount
  have hbefore : sep ∉ before := List.count_eq_zero.mp (by omega)
  have hafter : sep ∉ after := List.count_eq_zero.mp (by omega)
  obtain ⟨front, hfront, hpart⟩ : ∃ front, first = before ++ front ∧
      part ++ after = front ++ sep :: (mid ++ sep :: last) := by
    rcases List.append_eq_append_iff.mp h with hinside | ⟨more, hmore, hrest⟩
    · exact hinside
    · cases more with
      | nil => exact ⟨[], by simpa using hmore.symm, by simpa using hrest.symm⟩
      | cons x more =>
          obtain ⟨rfl, -⟩ := List.cons.inj hrest
          simp [hmore] at hbefore
  have hassoc : part ++ after =
      (front ++ sep :: mid ++ [sep]) ++ last := by
    rw [hpart]
    simp
  refine ⟨front, ?_⟩
  rcases List.append_eq_append_iff.mp hassoc with
    ⟨more, hmore, hrest⟩ | ⟨back, hback, hrest⟩
  · rcases List.eq_nil_or_concat more with rfl | ⟨more, x, rfl⟩
    · exact ⟨[], hfront, by simpa using hrest.symm, by simpa using hmore.symm⟩
    · rw [List.concat_eq_append, ← List.append_assoc] at hmore
      obtain ⟨-, hx⟩ := List.append_inj' hmore rfl
      cases hx
      simp [hrest] at hafter
  · exact ⟨back, hfront, hrest, by simpa using hback⟩

private theorem mem_of_mem_splitRunsFrom {inRun : Bool} {xs token : List α}
    (h : token ∈ splitRunsFrom p inRun xs) : ∀ x ∈ token, x ∈ xs ∧ p x = false := by
  induction xs generalizing inRun token with
  | nil =>
      simp only [splitRunsFrom, List.mem_singleton] at h
      simp [h]
  | cons x xs ih =>
      have hlater : ∀ {inRun : Bool}, token ∈ splitRunsFrom p inRun xs →
          ∀ y ∈ token, y ∈ x :: xs ∧ p y = false := fun h y hy =>
        ⟨List.mem_cons_of_mem _ (ih h y hy).1, (ih h y hy).2⟩
      by_cases hx : p x
      · cases inRun with
        | true => exact hlater (by simpa [splitRunsFrom, hx] using h)
        | false =>
            simp only [splitRunsFrom, hx, if_true, Bool.false_eq_true, if_false,
              List.mem_cons] at h
            rcases h with rfl | h
            · simp
            · exact hlater h
      · obtain ⟨first, others, hsplit⟩ :=
          List.exists_cons_of_ne_nil (@splitRuns_ne_nil α p xs)
        rw [splitRuns] at hsplit
        simp only [splitRunsFrom, hx, if_false, hsplit, List.modifyHead_cons,
          List.mem_cons, Bool.false_eq_true] at h
        rcases h with rfl | h
        · intro y hy
          rcases List.mem_cons.mp hy with rfl | hy
          · exact ⟨List.mem_cons_self, by simpa using hx⟩
          · have hfirst := @ih false first (by rw [hsplit]; simp) y hy
            exact ⟨List.mem_cons_of_mem _ hfirst.1, hfirst.2⟩
        · exact hlater (by rw [hsplit]; exact List.mem_cons_of_mem _ h)

/-- A token consists of elements of the list that are no separators. -/
theorem mem_of_mem_splitRuns {xs token : List α}
    (h : token ∈ splitRuns p xs) : ∀ x ∈ token, x ∈ xs ∧ p x = false :=
  mem_of_mem_splitRunsFrom h

/-! ## What a split says about the list -/

theorem splitRuns_eq_singleton_iff {xs token : List α} :
    splitRuns p xs = [token] ↔ xs = token ∧ ∀ x ∈ token, p x = false := by
  constructor
  · intro h
    refine ⟨eq_of_splitRuns_singleton h, fun x hx => ?_⟩
    exact (mem_of_mem_splitRuns (by rw [h]; simp) x hx).2
  · rintro ⟨rfl, hfree⟩
    exact splitRuns_of_forall_not hfree

/-- A run is skipped whole, so what is cut next does not begin with a separator. -/
theorem splitRuns_eq_cons_iff {xs first : List α} {others : List (List α)}
    (hothers : others ≠ []) :
    splitRuns p xs = first :: others ↔
      ∃ run rest, run ≠ [] ∧ (∀ x ∈ run, p x = true) ∧
        (∀ x ∈ first, p x = false) ∧ rest.dropWhile p = rest ∧
        xs = first ++ (run ++ rest) ∧ splitRuns p rest = others := by
  constructor
  · intro h
    have hcut : (xs.takeWhile fun x => !p x) ++ (xs.dropWhile fun x => !p x) =
        xs := List.takeWhile_append_dropWhile
    have hfree : ∀ x ∈ xs.takeWhile (fun x => !p x), p x = false := by
      intro x hx
      simpa using List.mem_takeWhile_imp hx
    cases hback : xs.dropWhile fun x => !p x with
    | nil =>
        rw [hback, List.append_nil] at hcut
        rw [← hcut, splitRuns_of_forall_not hfree] at h
        exact absurd (List.cons.inj h).2.symm hothers
    | cons x back =>
        have hx : p x = true := by
          have hhead := List.head_dropWhile_not (fun x => !p x)
            (by rw [hback]; simp)
          simpa [hback] using hhead
        rw [hback] at hcut
        rw [← hcut, splitRuns_append_sep hfree hx] at h
        obtain ⟨hfirst, hrest⟩ := List.cons.inj h
        refine ⟨x :: back.takeWhile p, back.dropWhile p, by simp, ?_,
          hfirst ▸ hfree, List.dropWhile_idempotent _ back, ?_, hrest⟩
        · intro y hy
          rcases List.mem_cons.mp hy with rfl | hy
          · exact hx
          · exact List.mem_takeWhile_imp hy
        · rw [List.cons_append, List.takeWhile_append_dropWhile, ← hfirst, hcut]
  · rintro ⟨run, rest, hne, hrun, hfree, hrest, rfl, rfl⟩
    obtain ⟨x, run, rfl⟩ := List.exists_cons_of_ne_nil hne
    have hdrop : (run ++ rest).dropWhile p = rest := by
      rw [List.dropWhile_append_of_pos fun y hy => hrun y (by simp [hy]), hrest]
    rw [List.cons_append, splitRuns_append_sep hfree (hrun x (by simp)), hdrop]

theorem prefix_of_splitRuns_cons {xs first : List α} {others : List (List α)}
    (h : splitRuns p xs = first :: others) : first <+: xs := by
  by_cases hothers : others = []
  · subst hothers
    obtain ⟨rfl, -⟩ := splitRuns_eq_singleton_iff.mp h
    exact List.prefix_rfl
  · obtain ⟨run, rest, -, -, -, -, rfl, -⟩ := (splitRuns_eq_cons_iff hothers).mp h
    exact List.prefix_append first (run ++ rest)

/-! ## Cutting at every separator -/

section SplitOn

variable [BEq α] [LawfulBEq α] {sep : α} {xs first token : List α}
  {others : List (List α)}

theorem notMem_of_mem_splitOn (h : token ∈ xs.splitOn sep) : sep ∉ token := by
  induction xs generalizing token with
  | nil =>
      rw [List.splitOn_nil, List.mem_singleton] at h
      simp [h]
  | cons x xs ih =>
      rw [List.splitOn_cons_eq_if_modifyHead] at h
      split at h
      · rcases List.mem_cons.mp h with rfl | h
        · simp
        · exact ih h
      · next hx =>
          obtain ⟨head, tail, hsplit⟩ :=
            List.exists_cons_of_ne_nil (List.splitOn_ne_nil sep xs)
          rw [hsplit, List.modifyHead_cons] at h
          rcases List.mem_cons.mp h with rfl | h
          · have hhead := @ih head (by rw [hsplit]; simp)
            have hne : sep ≠ x := fun heq => hx (by simp [heq])
            simp [hhead, hne]
          · exact ih (by rw [hsplit]; exact List.mem_cons_of_mem _ h)

theorem splitOn_eq_singleton_iff :
    xs.splitOn sep = [token] ↔ xs = token ∧ sep ∉ token := by
  constructor
  · intro h
    have hxs : [sep].intercalate (xs.splitOn sep) = xs := List.intercalate_splitOn sep
    rw [h, List.intercalate_singleton] at hxs
    exact ⟨hxs.symm, notMem_of_mem_splitOn (by rw [h]; simp)⟩
  · rintro ⟨rfl, hfree⟩
    exact List.splitOn_eq_singleton hfree

theorem splitOn_eq_cons_iff (hothers : others ≠ []) :
    xs.splitOn sep = first :: others ↔
      ∃ rest, sep ∉ first ∧ xs = first ++ sep :: rest ∧
        rest.splitOn sep = others := by
  constructor
  · intro h
    have hfree : ∀ token ∈ first :: others, sep ∉ token := fun token hmem =>
      notMem_of_mem_splitOn (by rw [h]; exact hmem)
    have hxs : [sep].intercalate (xs.splitOn sep) = xs := List.intercalate_splitOn sep
    refine ⟨[sep].intercalate others, hfree first (by simp), ?_,
      List.splitOn_intercalate sep (fun token hmem => hfree token (by simp [hmem]))
        hothers⟩
    rw [← hxs, h, List.intercalate_cons_of_ne_nil hothers]
    simp
  · rintro ⟨rest, hfirst, rfl, rfl⟩
    exact List.splitOn_append_cons_self_of_not_mem hfirst rest

end SplitOn

end TinyBpfLog.Foundation
