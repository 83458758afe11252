import Mathlib.Data.List.Basic

/-!
# Transition systems, invariants and simulations

Labelled transition systems with the rules the development uses on them: an
inductive invariant holds in every reachable state, runs can be restricted to
the steps that meet a condition, and a step-by-step simulation between two
deterministic machines lifts to whole input sequences.
-/

namespace TinyBpfLog.Foundation

structure System (S L : Type*) where
  init : S → Prop
  step : S → L → S → Prop

namespace System

variable {S L : Type*} {sys : System S L}

inductive Reachable (sys : System S L) : S → Prop
  | init {s : S} : sys.init s → Reachable sys s
  | step {s t : S} {label : L} :
      Reachable sys s → sys.step s label t → Reachable sys t

/-- `Runs sys s labels t`: the labels, in order, lead from `s` to `t`. -/
inductive Runs (sys : System S L) : S → List L → S → Prop
  | refl (s : S) : Runs sys s [] s
  | cons {s t u : S} {label : L} {labels : List L} :
      sys.step s label t → Runs sys t labels u →
      Runs sys s (label :: labels) u

theorem Reachable.invariant {Inv : S → Prop}
    (hinit : ∀ s, sys.init s → Inv s)
    (hstep : ∀ s label t, Reachable sys s → Inv s → sys.step s label t → Inv t)
    {s : S} (h : Reachable sys s) : Inv s := by
  induction h with
  | init h => exact hinit _ h
  | step hreach hs ih => exact hstep _ _ _ hreach ih hs

/-- Reachability carries over where every step is matched by one step or none. -/
theorem Reachable.map {T M : Type*} {target : System T M} (view : S → T)
    (hinit : ∀ s, sys.init s → target.init (view s))
    (hstep : ∀ s label t, Reachable target (view s) → sys.step s label t →
      view t = view s ∨ ∃ matched, target.step (view s) matched (view t))
    {s : S} (h : Reachable sys s) : Reachable target (view s) := by
  induction h with
  | init h => exact .init (hinit _ h)
  | step _ hs ih =>
      rcases hstep _ _ _ ih hs with heq | ⟨matched, hmatched⟩
      · rwa [heq]
      · exact ih.step hmatched

theorem Reachable.runs {s t : S} {labels : List L} (hs : Reachable sys s)
    (h : Runs sys s labels t) : Reachable sys t := by
  induction h with
  | refl => exact hs
  | cons hstep _ ih => exact ih (hs.step hstep)

theorem Runs.trans {s t u : S} {first second : List L}
    (h₁ : Runs sys s first t) (h₂ : Runs sys t second u) :
    Runs sys s (first ++ second) u := by
  induction h₁ with
  | refl => exact h₂
  | cons hstep _ ih => exact .cons hstep (ih h₂)

theorem Runs.single {s t : S} {label : L} (h : sys.step s label t) :
    Runs sys s [label] t :=
  .cons h (.refl t)

def ofStep (init : S → Prop) (step : S → L → Option S) : System S L where
  init := init
  step s label t := step s label = some t

theorem Runs.ofStep {init : S → Prop} {step : S → L → Option S}
    {labels : List L} {s t : S} (h : labels.foldlM step s = some t) :
    Runs (ofStep init step) s labels t := by
  induction labels generalizing s with
  | nil =>
      cases h
      exact .refl _
  | cons label labels ih =>
      rw [List.foldlM_cons] at h
      cases hstep : step s label with
      | none => simp [hstep] at h
      | some u =>
          rw [hstep] at h
          exact .cons hstep (ih h)

/-- Some steps lead from `s` to `t`. -/
def Leads (sys : System S L) (s t : S) : Prop :=
  ∃ labels, Runs sys s labels t

theorem Leads.refl (s : S) : Leads sys s s :=
  ⟨[], .refl s⟩

theorem Leads.trans {s t u : S} (h₁ : Leads sys s t) (h₂ : Leads sys t u) :
    Leads sys s u := by
  obtain ⟨first, h₁⟩ := h₁
  obtain ⟨second, h₂⟩ := h₂
  exact ⟨first ++ second, h₁.trans h₂⟩

theorem Leads.single {s t : S} {label : L} (h : sys.step s label t) : Leads sys s t :=
  ⟨[label], .single h⟩

theorem Leads.ofStep {init : S → Prop} {step : S → L → Option S} (labels : List L)
    {s t : S} (h : labels.foldlM step s = some t) : Leads (ofStep init step) s t :=
  ⟨labels, .ofStep h⟩

theorem Leads.invariant {Inv : S → Prop}
    (hstep : ∀ s label t, Inv s → sys.step s label t → Inv t) {s t : S}
    (hs : Inv s) (h : Leads sys s t) : Inv t := by
  obtain ⟨labels, hruns⟩ := h
  induction hruns with
  | refl => exact hs
  | cons hstep' _ ih => exact ih (hstep _ _ _ hs hstep')

def restrict (sys : System S L) (allowed : S → L → Prop) : System S L where
  init := sys.init
  step s label t := sys.step s label t ∧ allowed s label

theorem Leads.of_restrict {allowed : S → L → Prop} {s t : S}
    (h : Leads (sys.restrict allowed) s t) : Leads sys s t := by
  obtain ⟨labels, hruns⟩ := h
  refine ⟨labels, ?_⟩
  induction hruns with
  | refl => exact .refl _
  | cons hstep _ ih => exact .cons hstep.1 ih

theorem Runs.ofStep_restrict {init : S → Prop} {step : S → L → Option S}
    {allowed : S → L → Prop} [∀ s label, Decidable (allowed s label)]
    {labels : List L} {s t : S}
    (h : labels.foldlM
      (fun s label => if allowed s label then step s label else none) s =
        some t) :
    Runs ((System.ofStep init step).restrict allowed) s labels t := by
  induction labels generalizing s with
  | nil =>
      cases h
      exact .refl _
  | cons label labels ih =>
      rw [List.foldlM_cons] at h
      by_cases hallowed : allowed s label
      · cases hstep : step s label with
        | none => simp [hallowed, hstep] at h
        | some u =>
            rw [if_pos hallowed, hstep] at h
            exact .cons ⟨hstep, hallowed⟩ (ih h)
      · simp [hallowed] at h

end System

/-! ## Deterministic machines run on input sequences -/

section Simulation

variable {C A In Out Fault : Type*}

/-- Feed a list of inputs to a machine that may fault, collecting its outputs. -/
def runInputs (step : In → C → Except Fault (Out × C)) :
    List In → C → Except Fault (List Out × C)
  | [], c => .ok ([], c)
  | input :: inputs, c =>
      match step input c with
      | .error fault => .error fault
      | .ok (out, c) =>
          match runInputs step inputs c with
          | .error fault => .error fault
          | .ok (outs, c) => .ok (out :: outs, c)

def Admissible (step : In → C → Except Fault (Out × C))
    (allowed : In → C → Prop) : List In → C → Prop
  | [], _ => True
  | input :: inputs, c =>
      allowed input c ∧
        ∀ out c', step input c = .ok (out, c') →
          Admissible step allowed inputs c'

/-- `P` holds at the start and after every step that does not fault. -/
def Throughout (step : In → C → Except Fault (Out × C)) (P : C → Prop) :
    List In → C → Prop
  | [], c => P c
  | input :: inputs, c =>
      P c ∧ ∀ out c', step input c = .ok (out, c') →
        Throughout step P inputs c'

theorem Throughout.head {step : In → C → Except Fault (Out × C)}
    {P : C → Prop} {inputs : List In} {c : C}
    (h : Throughout step P inputs c) : P c := by
  cases inputs with
  | nil => exact h
  | cons input inputs => exact h.1

theorem runInputs_cons {step : In → C → Except Fault (Out × C)} {input : In}
    {inputs : List In} {c c' : C} {outs : List Out}
    (h : runInputs step (input :: inputs) c = .ok (outs, c')) :
    ∃ out c₁ rest, step input c = .ok (out, c₁) ∧
      runInputs step inputs c₁ = .ok (rest, c') ∧ outs = out :: rest := by
  cases hfirst : step input c with
  | error fault => simp [runInputs, hfirst] at h
  | ok result =>
      obtain ⟨out, c₁⟩ := result
      simp only [runInputs, hfirst] at h
      cases hruns : runInputs step inputs c₁ with
      | error fault => simp [hruns] at h
      | ok result =>
          obtain ⟨rest, c₂⟩ := result
          simp only [hruns, Except.ok.injEq, Prod.mk.injEq] at h
          obtain ⟨rfl, rfl⟩ := h
          exact ⟨out, c₁, rest, rfl, hruns, rfl⟩

/--
If a step from a good state leads to a good state exactly when it is allowed,
then a run stays in good states exactly when all its steps are allowed.
-/
theorem throughout_iff_admissible {step : In → C → Except Fault (Out × C)}
    {Inv P : C → Prop} {allowed : In → C → Prop} {inputs : List In}
    (hstep : ∀ input ∈ inputs, ∀ c out c', Inv c → P c →
      step input c = .ok (out, c') → Inv c' ∧ (P c' ↔ allowed input c))
    {c c' : C} {outs : List Out} (hInv : Inv c) (hP : P c)
    (hrun : runInputs step inputs c = .ok (outs, c')) :
    Throughout step P inputs c ↔ Admissible step allowed inputs c := by
  induction inputs generalizing c outs with
  | nil => exact iff_of_true hP trivial
  | cons input inputs ih =>
      obtain ⟨out, c₁, rest, hfirst, hrest, -⟩ := runInputs_cons hrun
      obtain ⟨hInv₁, hP₁⟩ := hstep input (by simp) c out c₁ hInv hP hfirst
      have htail : P c₁ → (Throughout step P inputs c₁ ↔
          Admissible step allowed inputs c₁) := fun hP₁ =>
        ih (fun input hinput => hstep input (by simp [hinput])) hInv₁ hP₁ hrest
      simp only [Throughout, Admissible, hfirst, Except.ok.injEq,
        Prod.mk.injEq, and_imp, forall_eq', forall_apply_eq_imp_iff]
      constructor
      · rintro ⟨-, hthroughout⟩
        have hnow := hthroughout.head
        exact ⟨hP₁.mp hnow, (htail hnow).mp hthroughout⟩
      · rintro ⟨hallowed, hadmissible⟩
        exact ⟨hP, (htail (hP₁.mpr hallowed)).mpr hadmissible⟩

/-- The specification machine never faults. -/
def runSpec (step : In → A → Out × A) : List In → A → List Out × A
  | [], a => ([], a)
  | input :: inputs, a =>
      let (out, a) := step input a
      let (outs, a) := runSpec step inputs a
      (out :: outs, a)

/--
Forward simulation.  If every allowed input, from related states, makes the
implementation answer without a fault as the specification does (up to `view`)
and keeps the states related, the same holds of whole sequences.
-/
theorem runInputs_simulates {View : Type*} (view : Out → View) (R : C → A → Prop)
    {step : In → C → Except Fault (Out × C)} {spec : In → A → View × A}
    {allowed : In → C → Prop}
    (hstep : ∀ input c a, R c a → allowed input c →
      ∃ out c', step input c = .ok (out, c') ∧
        view out = (spec input a).1 ∧ R c' (spec input a).2)
    (inputs : List In) {c : C} {a : A} (hR : R c a)
    (hadm : Admissible step allowed inputs c) :
    ∃ outs c', runInputs step inputs c = .ok (outs, c') ∧
      outs.map view = (runSpec spec inputs a).1 ∧
      R c' (runSpec spec inputs a).2 := by
  induction inputs generalizing c a with
  | nil => exact ⟨[], c, rfl, rfl, hR⟩
  | cons input inputs ih =>
      obtain ⟨hallowed, hrest⟩ := hadm
      obtain ⟨out, c₁, hout, hview, hR₁⟩ := hstep input c a hR hallowed
      obtain ⟨outs, c₂, houts, hviews, hR₂⟩ := ih hR₁ (hrest out c₁ hout)
      refine ⟨out :: outs, c₂, ?_, ?_, ?_⟩
      · simp only [runInputs, hout, houts]
      · simp only [runSpec, List.map_cons, hview, hviews]
      · simpa only [runSpec] using hR₂

end Simulation

end TinyBpfLog.Foundation
