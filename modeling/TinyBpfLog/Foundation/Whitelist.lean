import Mathlib.Data.Finset.Insert
import Mathlib.Tactic.Common

/-!
# Whitelists with an enable flag

A whitelist lets everything through until it is enabled, and then its values.
A configuration has one for each dimension.  Neither an addition nor a test is
atomic: the flag is looked at and set outside the lock of the set.
-/

namespace TinyBpfLog.Foundation

structure Whitelist (κ : Type) where
  enabled : Bool
  values : Finset κ

namespace Whitelist

variable {κ : Type} [DecidableEq κ]

def add (value : κ) (whitelist : Whitelist κ) : Whitelist κ where
  enabled := true
  values := insert value whitelist.values

def filters (value : κ) (whitelist : Whitelist κ) : Bool :=
  whitelist.enabled && decide (value ∉ whitelist.values)

variable {value : κ} {whitelist : Whitelist κ}

theorem filters_eq_false_iff :
    whitelist.filters value = false ↔
      (whitelist.enabled = true → value ∈ whitelist.values) := by
  cases henabled : whitelist.enabled <;> simp [filters, henabled]

theorem filters_add_self : (whitelist.add value).filters value = false :=
  filters_eq_false_iff.mpr fun _ => Finset.mem_insert_self _ _

theorem filters_disabled (h : whitelist.enabled = false) :
    whitelist.filters value = false :=
  filters_eq_false_iff.mpr fun henabled => absurd (h.symm.trans henabled) (by simp)

/-- Nothing gets through. -/
def Closed (whitelist : Whitelist κ) : Prop :=
  whitelist.enabled = true ∧ whitelist.values = ∅

theorem not_closed_iff [Inhabited κ] :
    ¬ whitelist.Closed ↔ ∃ value, whitelist.filters value = false := by
  constructor
  · intro h
    rcases not_and_or.mp h with hdisabled | hvalues
    · exact ⟨default, filters_disabled (by simpa using hdisabled)⟩
    · obtain ⟨value, hvalue⟩ := Finset.nonempty_iff_ne_empty.mpr hvalues
      exact ⟨value, filters_eq_false_iff.mpr fun _ => hvalue⟩
  · rintro ⟨value, hfilters⟩ ⟨henabled, hvalues⟩
    have hmem := filters_eq_false_iff.mp hfilters henabled
    simp [hvalues] at hmem

/-! ## Values that are cut when they are looked up -/

section Cut

variable {cut : κ → κ} {v w : κ}

variable (cut v w) in
/-- Neither added nor looked up does one of them differ from the other. -/
def Alike : Prop :=
  (∀ (whitelist : Whitelist κ) x,
    (whitelist.add v).filters (cut x) = (whitelist.add w).filters (cut x)) ∧
  ∀ whitelist : Whitelist κ, whitelist.filters (cut v) = whitelist.filters (cut w)

theorem cut_eq_of_alike (h : Alike cut v w) : cut v = cut w := by
  have hsame := h.2 ⟨true, {cut v}⟩
  have hout : filters (cut v) ⟨true, {cut v}⟩ = false := by simp [filters]
  rw [hout] at hsame
  have hmem := filters_eq_false_iff.mp hsame.symm rfl
  exact (Finset.mem_singleton.mp hmem).symm

theorem fits_of_alike (h : Alike cut v w) (hfits : cut v = v) : cut w = w := by
  have hsame := h.1 ⟨true, ∅⟩ v
  rw [hfits, filters_add_self] at hsame
  have hmem := filters_eq_false_iff.mp hsame.symm rfl
  have heq : v = w := by simpa [add] using hmem
  rw [← heq, hfits]

/-- A value that does not fit is added in vain, whatever it is. -/
theorem alike_iff (hcut : ∀ x, cut (cut x) = cut x) :
    Alike cut v w ↔ cut v = cut w ∧ (cut v = v ↔ cut w = w) := by
  constructor
  · intro h
    have hback : Alike cut w v :=
      ⟨fun whitelist x => (h.1 whitelist x).symm, fun whitelist => (h.2 whitelist).symm⟩
    exact ⟨cut_eq_of_alike h, fits_of_alike h, fits_of_alike hback⟩
  · rintro ⟨hsame, hfits⟩
    refine ⟨fun whitelist x => ?_, fun whitelist => by rw [hsame]⟩
    by_cases hv : cut v = v
    · have heq : v = w := by rw [← hv, hsame, hfits.mp hv]
      rw [heq]
    · have hvain : ∀ y, cut y ≠ y → cut x ≠ y := by
        rintro y hy rfl
        exact hy (hcut x)
      have hxv := hvain v hv
      have hxw := hvain w (mt hfits.mpr hv)
      simp [filters, add, hxv, hxw]

end Cut

end Whitelist

/-- One of the whitelists of a configuration, with its value as the set keeps it. -/
structure Dimension (Config Value : Type) where
  Key : Type
  decEq : DecidableEq Key
  key : Value → Key
  get : Config → Whitelist Key
  set : Whitelist Key → Config → Config
  get_set : ∀ whitelist config, get (set whitelist config) = whitelist := by
    intros; rfl
  set_set : ∀ later whitelist config,
    set later (set whitelist config) = set later config := by intros; rfl

namespace Dimension

variable {Config Value Other : Type}

instance (dimension : Dimension Config Value) : DecidableEq dimension.Key :=
  dimension.decEq

def add (dimension : Dimension Config Value) (value : Value) (config : Config) :
    Config :=
  dimension.set ((dimension.get config).add (dimension.key value)) config

def filters (dimension : Dimension Config Value) (value : Value)
    (config : Config) : Bool :=
  (dimension.get config).filters (dimension.key value)

/-- What is set in one of them is not seen in the other. -/
def Apart (dimension : Dimension Config Value) (other : Dimension Config Other) :
    Prop :=
  ∀ whitelist config, other.get (dimension.set whitelist config) = other.get config

variable (dimension : Dimension Config Value) (other : Dimension Config Other)

@[simp] theorem get_add (value : Value) (config : Config) :
    dimension.get (dimension.add value config) =
      (dimension.get config).add (dimension.key value) :=
  dimension.get_set _ _

theorem get_add_apart (h : dimension.Apart other) (value : Value)
    (config : Config) : other.get (dimension.add value config) = other.get config :=
  h _ _

theorem filters_add_apart (h : dimension.Apart other) (value : Value)
    (config : Config) (held : Other) :
    other.filters held (dimension.add value config) = other.filters held config := by
  rw [filters, filters, get_add_apart dimension other h]

/-! ## Sequences of additions -/

section Additions

variable {ι : Type} {Value : ι → Type}
  (dimensions : (i : ι) → Dimension Config (Value i))

def addAll (adds : List (Σ i, Value i)) (config : Config) : Config :=
  adds.foldl (fun config add => (dimensions add.1).add add.2 config) config

variable {dimensions} {i : ι}
  (hapart : ∀ j, j ≠ i → (dimensions j).Apart (dimensions i))
include hapart

theorem enabled_addAll_iff (adds : List (Σ i, Value i)) (config : Config) :
    ((dimensions i).get (addAll dimensions adds config)).enabled = true ↔
      ((dimensions i).get config).enabled = true ∨ ∃ value, ⟨i, value⟩ ∈ adds := by
  induction adds generalizing config with
  | nil => simp [addAll]
  | cons add adds ih =>
      obtain ⟨j, added⟩ := add
      rw [addAll, List.foldl_cons, ← addAll, ih]
      by_cases hji : j = i
      · subst hji
        simp only [get_add, Whitelist.add, true_or, true_iff]
        exact .inr ⟨added, List.mem_cons_self⟩
      · rw [get_add_apart _ _ (hapart j hji)]
        simp [Ne.symm hji]

theorem mem_addAll_iff (adds : List (Σ i, Value i)) (config : Config)
    (key : (dimensions i).Key) :
    key ∈ ((dimensions i).get (addAll dimensions adds config)).values ↔
      key ∈ ((dimensions i).get config).values ∨
        ∃ value, ⟨i, value⟩ ∈ adds ∧ (dimensions i).key value = key := by
  induction adds generalizing config with
  | nil => simp [addAll]
  | cons add adds ih =>
      obtain ⟨j, added⟩ := add
      rw [addAll, List.foldl_cons, ← addAll, ih]
      by_cases hji : j = i
      · subst hji
        simp [Whitelist.add, or_assoc, or_left_comm, eq_comm]
      · rw [get_add_apart _ _ (hapart j hji)]
        simp [Ne.symm hji]

/-- From an empty set on, only values that were added are let through. -/
theorem filters_addAll_iff {config : Config}
    (hempty : ((dimensions i).get config).values = ∅) (adds : List (Σ i, Value i))
    (value : Value i) :
    (dimensions i).filters value (addAll dimensions adds config) = false ↔
      (((dimensions i).get config).enabled = false ∧
          ∀ other, ⟨i, other⟩ ∉ adds) ∨
        ∃ other, ⟨i, other⟩ ∈ adds ∧
          (dimensions i).key other = (dimensions i).key value := by
  rw [filters, Whitelist.filters_eq_false_iff, enabled_addAll_iff hapart,
    mem_addAll_iff hapart, hempty]
  simp only [Finset.notMem_empty, false_or]
  constructor
  · intro hin
    by_cases hnever : ((dimensions i).get config).enabled = false ∧
        ∀ other, (⟨i, other⟩ : Σ i, Value i) ∉ adds
    · exact .inl hnever
    · refine .inr (hin ?_)
      rcases not_and_or.mp hnever with henabled | hadded
      · exact .inl (by simpa using henabled)
      · push Not at hadded
        exact .inr hadded
  · rintro (⟨henabled, hnone⟩ | hin)
    · rintro (hflag | ⟨other, hadded⟩)
      · exact absurd (henabled.symm.trans hflag) (by simp)
      · exact absurd hadded (hnone other)
    · exact fun _ => hin

/-- The same where the set keeps the values as they are. -/
theorem filters_addAll_iff_mem (hkey : Function.Injective (dimensions i).key)
    {config : Config} (hempty : ((dimensions i).get config).values = ∅)
    (adds : List (Σ i, Value i)) (value : Value i) :
    (dimensions i).filters value (addAll dimensions adds config) = false ↔
      (((dimensions i).get config).enabled = false ∧
          ∀ other, ⟨i, other⟩ ∉ adds) ∨ ⟨i, value⟩ ∈ adds := by
  rw [filters_addAll_iff hapart hempty]
  refine or_congr_right ?_
  constructor
  · rintro ⟨other, hmem, hsame⟩
    exact hkey hsame ▸ hmem
  · exact fun hmem => ⟨value, hmem, rfl⟩

/-- After an addition the flag no longer matters. -/
theorem filters_addAll_append_cons_iff
    (hkey : Function.Injective (dimensions i).key) {config : Config}
    (hempty : ((dimensions i).get config).values = ∅)
    (earlier later : List (Σ i, Value i)) (added value : Value i) :
    (dimensions i).filters value
        (addAll dimensions (earlier ++ ⟨i, added⟩ :: later) config) = false ↔
      value = added ∨ ⟨i, value⟩ ∈ earlier ++ later := by
  have hadded : (⟨i, added⟩ : Σ i, Value i) ∈ earlier ++ ⟨i, added⟩ :: later :=
    List.mem_append_right _ List.mem_cons_self
  have hmem : (⟨i, value⟩ : Σ i, Value i) ∈ earlier ++ ⟨i, added⟩ :: later ↔
      value = added ∨ ⟨i, value⟩ ∈ earlier ++ later := by
    simp [or_left_comm]
  rw [filters_addAll_iff_mem hapart hkey hempty, hmem]
  exact or_iff_right fun hnone => hnone.2 added hadded

end Additions

/-! ## Additions and tests step by step -/

/-- The first three are an addition's, the last two a test's. -/
inductive Action where
  | testFlag
  | storeFlag
  | insertValue
  | loadFlag
  | searchSet
  deriving DecidableEq, Repr

inductive Adder where
  | enter
  | store
  | insert
  | done
  deriving DecidableEq, Repr

inductive Tester where
  | enter
  | search
  | answered (filtered : Bool)
  deriving DecidableEq, Repr

/-- An addition and a test of one value on two threads. -/
structure Race (Config : Type) where
  config : Config
  adder : Adder
  tester : Tester

def Race.start (config : Config) : Race Config := ⟨config, .enter, .enter⟩

def step (value : Value) (race : Race Config) : Action → Option (Race Config)
  | .testFlag =>
      match race.adder with
      | .enter =>
          some { race with
            adder := if (dimension.get race.config).enabled then .insert else .store }
      | _ => none
  | .storeFlag =>
      match race.adder with
      | .store =>
          some { race with
            config := dimension.set
              { dimension.get race.config with enabled := true } race.config
            adder := .insert }
      | _ => none
  | .insertValue =>
      match race.adder with
      | .insert =>
          let whitelist := dimension.get race.config
          some { race with
            config := dimension.set { whitelist with
              values := insert (dimension.key value) whitelist.values } race.config
            adder := .done }
      | _ => none
  | .loadFlag =>
      match race.tester with
      | .enter =>
          some { race with
            tester := if (dimension.get race.config).enabled then .search
              else .answered false }
      | _ => none
  | .searchSet =>
      match race.tester with
      | .search =>
          some { race with
            tester := .answered
              (decide (dimension.key value ∉ (dimension.get race.config).values)) }
      | _ => none

def run (value : Value) : Race Config → List Action → Option (Race Config)
  | race, [] => some race
  | race, action :: actions =>
      match dimension.step value race action with
      | none => none
      | some race => run value race actions

/-- The steps of an addition, one after the other, are `add`. -/
theorem run_adder (value : Value) (config : Config) (tester : Tester) :
    dimension.run value ⟨config, .enter, tester⟩
        (if (dimension.get config).enabled then [.testFlag, .insertValue]
          else [.testFlag, .storeFlag, .insertValue]) =
      some ⟨dimension.add value config, .done, tester⟩ := by
  cases henabled : (dimension.get config).enabled <;>
    simp [run, step, henabled, add, Whitelist.add, dimension.get_set,
      dimension.set_set]

/-- The steps of a test, one after the other, are `filters`. -/
theorem run_tester (value : Value) (config : Config) (adder : Adder) :
    dimension.run value ⟨config, adder, .enter⟩
        (if (dimension.get config).enabled then [.loadFlag, .searchSet]
          else [.loadFlag]) =
      some ⟨config, adder, .answered (dimension.filters value config)⟩ := by
  cases henabled : (dimension.get config).enabled <;>
    simp [run, step, henabled, filters, Whitelist.filters]

/-! ## Races -/

/-- The flag is set where the addition has got to, and the value is in the set. -/
structure Race.Fresh (value : Value) (race : Race Config) : Prop where
  enabled : (dimension.get race.config).enabled = true ↔
    race.adder = .insert ∨ race.adder = .done
  present : dimension.key value ∈ (dimension.get race.config).values ↔
    race.adder = .done
  seen : race.tester ≠ .enter → race.tester ≠ .answered false →
    race.adder = .insert ∨ race.adder = .done

/-- The actions that are left of the one schedule with a wrong answer. -/
def doomed : Adder → Tester → Option (List Action)
  | .enter, .enter =>
      some [.testFlag, .storeFlag, .loadFlag, .searchSet, .insertValue]
  | .store, .enter => some [.storeFlag, .loadFlag, .searchSet, .insertValue]
  | .insert, .enter => some [.loadFlag, .searchSet, .insertValue]
  | .insert, .search => some [.searchSet, .insertValue]
  | .insert, .answered true => some [.insertValue]
  | .done, .answered true => some []
  | _, _ => none

variable {dimension} {value : Value} {race next : Race Config} {action : Action}

theorem Race.fresh_start {config : Config}
    (h : dimension.get config = ⟨false, ∅⟩) :
    (Race.start config).Fresh dimension value := by
  constructor <;> simp [Race.start, h]

/-- Only what is doomed stays so, by the action that is due. -/
theorem Race.Fresh.step (hfresh : race.Fresh dimension value)
    (hstep : dimension.step value race action = some next) :
    next.Fresh dimension value ∧ ∀ actions,
      (doomed race.adder race.tester = some (action :: actions) ↔
        doomed next.adder next.tester = some actions) := by
  obtain ⟨config, adder, tester⟩ := race
  obtain ⟨henabled, hpresent, hseen⟩ := hfresh
  dsimp only at henabled hpresent hseen
  cases action with
  | testFlag =>
      cases adder <;> simp only [Dimension.step, reduceCtorEq] at hstep
      cases hstep
      have hdisabled : (dimension.get config).enabled = false := by
        simpa using henabled
      simp only [hdisabled]
      refine ⟨⟨by simp [hdisabled], by simpa using hpresent, ?_⟩, ?_⟩
      · simpa using hseen
      · cases tester <;> simp [doomed]
  | storeFlag =>
      cases adder <;> simp only [Dimension.step, reduceCtorEq] at hstep
      cases hstep
      refine ⟨⟨by simp [dimension.get_set], ?_, by simp⟩, fun actions => ?_⟩
      · simpa [dimension.get_set] using hpresent
      -- the test has not seen the flag yet
      · cases tester with
        | enter => simp [doomed]
        | search => simp at hseen
        | answered filtered => cases filtered <;> simp [doomed] at hseen ⊢
  | insertValue =>
      cases adder <;> simp only [Dimension.step, reduceCtorEq] at hstep
      cases hstep
      refine ⟨⟨?_, by simp [dimension.get_set], by simp⟩, fun actions => ?_⟩
      · simpa [dimension.get_set] using henabled
      · cases tester with
        | enter | search => simp [doomed]
        | answered filtered => cases filtered <;> simp [doomed, eq_comm]
  | loadFlag =>
      cases tester <;> simp only [Dimension.step, reduceCtorEq] at hstep
      cases hstep
      refine ⟨⟨henabled, hpresent, ?_⟩, fun actions => ?_⟩
      · cases hflag : (dimension.get config).enabled <;>
          simp [← henabled, hflag]
      · cases hflag : (dimension.get config).enabled <;> rw [hflag] at henabled <;>
          cases adder <;> simp [doomed] at henabled ⊢
  | searchSet =>
      cases tester <;> simp only [Dimension.step, reduceCtorEq] at hstep
      cases hstep
      have hflag := hseen (by simp) (by simp)
      refine ⟨⟨henabled, hpresent, fun _ _ => hflag⟩, fun actions => ?_⟩
      cases adder <;> simp [doomed, hpresent] at hflag ⊢

theorem Race.Fresh.run {actions : List Action} (hfresh : race.Fresh dimension value)
    (hrun : dimension.run value race actions = some next)
    (hadder : next.adder = .done) {filtered : Bool}
    (htester : next.tester = .answered filtered) :
    filtered = true ↔ doomed race.adder race.tester = some actions := by
  induction actions generalizing race with
  | nil =>
      cases hrun
      rw [hadder, htester]
      cases filtered <;> simp [doomed]
  | cons action actions ih =>
      rw [Dimension.run] at hrun
      cases hstep : dimension.step value race action with
      | none => simp [hstep] at hrun
      | some later =>
          rw [hstep] at hrun
          obtain ⟨hlater, hdoomed⟩ := hfresh.step hstep
          rw [hdoomed actions]
          exact ih hlater hrun

/-- A test beside the addition of its value goes wrong in one schedule only. -/
theorem filtered_iff_schedule {config : Config} {actions : List Action}
    (hfresh : dimension.get config = ⟨false, ∅⟩)
    (hrun : dimension.run value (.start config) actions = some next)
    (hadder : next.adder = .done) {filtered : Bool}
    (htester : next.tester = .answered filtered) :
    filtered = true ↔
      actions = [.testFlag, .storeFlag, .loadFlag, .searchSet, .insertValue] := by
  rw [(Race.fresh_start hfresh).run hrun hadder htester]
  simp [Race.start, doomed, eq_comm]

end Dimension

end TinyBpfLog.Foundation
