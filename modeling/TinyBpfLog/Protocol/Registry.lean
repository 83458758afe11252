import Mathlib.Logic.Function.Basic
import Mathlib.Tactic.Common

/-!
# The registry of monitors

What the frontend and the server together are for: a table of monitors, each
with an id, a name of its own, and either stopped or running.  A user makes one
under a new name, and starts, changes and stops it by its name or by its id.
-/

namespace TinyBpfLog

inductive Status where
  | stopped
  | running
  deriving DecidableEq, Repr

/-- How a session ends for the user; `blocked` is a client that never returns. -/
inductive Outcome where
  | ok
  | failed
  | blocked
  deriving DecidableEq, Repr

inductive Target (Id Name : Type*) where
  | byName (name : Name)
  | byId (id : Id)

inductive Request (Id Name : Type*) where
  | init (name : Name)
  | run (target : Target Id Name)
  | set (target : Target Id Name)
  | stop (target : Target Id Name)

structure Registry (Id Name : Type*) where
  entry : Id → Option (Name × Status)
  unique : ∀ i j name status status', entry i = some (name, status) →
    entry j = some (name, status') → i = j

namespace Registry

variable {Id Name : Type*} (registry : Registry Id Name)

def empty : Registry Id Name where
  entry := fun _ => none
  unique := by simp

def HasName (name : Name) : Prop :=
  ∃ id status, registry.entry id = some (name, status)

/-- `id` is in the table, and `target` means it. -/
def Addressed : Target Id Name → Id → Prop
  | .byName name, id => ∃ status, registry.entry id = some (name, status)
  | .byId target, id => id = target ∧ ∃ found, registry.entry id = some found

variable {registry}

theorem Addressed.eq {target : Target Id Name} {i j : Id}
    (hi : registry.Addressed target i) (hj : registry.Addressed target j) :
    i = j := by
  cases target with
  | byName name =>
      obtain ⟨status, hi⟩ := hi
      obtain ⟨status', hj⟩ := hj
      exact registry.unique i j name status status' hi hj
  | byId id => exact hi.1.trans hj.1.symm

open Classical in
noncomputable def find (registry : Registry Id Name) (target : Target Id Name) :
    Option Id :=
  if h : ∃ id, registry.Addressed target id then some h.choose else none

theorem find_of_addressed {target : Target Id Name} {id : Id}
    (h : registry.Addressed target id) : registry.find target = some id := by
  have hexists : ∃ id, registry.Addressed target id := ⟨id, h⟩
  rw [find, dif_pos hexists, hexists.choose_spec.eq h]

theorem find_of_not_addressed {target : Target Id Name}
    (h : ∀ id, ¬ registry.Addressed target id) :
    registry.find target = none := by
  apply dif_neg
  rintro ⟨id, hid⟩
  exact h id hid

/-! ## The operations -/

open Classical in
noncomputable def setStatus (registry : Registry Id Name) (id : Id)
    (status : Status) : Registry Id Name where
  entry := Function.update registry.entry id
    ((registry.entry id).map fun found => (found.1, status))
  unique := by
    -- an update keeps each entry's name, and names decide the id
    have hname : ∀ i name status', Function.update registry.entry id
        ((registry.entry id).map fun found => (found.1, status)) i =
          some (name, status') →
        ∃ before, registry.entry i = some (name, before) := by
      intro i name status' h
      by_cases hi : i = id
      · subst hi
        rw [Function.update_self, Option.map_eq_some_iff] at h
        obtain ⟨found, hfound, heq⟩ := h
        cases heq
        exact ⟨found.2, hfound⟩
      · rw [Function.update_of_ne hi] at h
        exact ⟨status', h⟩
    intro i j name status₁ status₂ hi hj
    obtain ⟨before, hi⟩ := hname i name status₁ hi
    obtain ⟨before', hj⟩ := hname j name status₂ hj
    exact registry.unique i j name before before' hi hj

open Classical in
noncomputable def add (registry : Registry Id Name) (id : Id) (name : Name)
    (hfree : ¬ registry.HasName name) : Registry Id Name where
  entry := Function.update registry.entry id (some (name, .stopped))
  unique := by
    intro i j other status status' hi hj
    by_cases hiid : i = id
    · by_cases hjid : j = id
      · rw [hiid, hjid]
      · rw [hiid, Function.update_self] at hi
        rw [Function.update_of_ne hjid] at hj
        cases hi
        exact absurd ⟨j, status', hj⟩ hfree
    · rw [Function.update_of_ne hiid] at hi
      by_cases hjid : j = id
      · rw [hjid, Function.update_self] at hj
        cases hj
        exact absurd ⟨i, status, hi⟩ hfree
      · rw [Function.update_of_ne hjid] at hj
        exact registry.unique i j other status status' hi hj

open Classical in
/-- Move the addressed entry from `before` to `after`, or fail. -/
noncomputable def switch (before after : Status) (target : Target Id Name)
    (registry : Registry Id Name) : Outcome × Registry Id Name :=
  match registry.find target with
  | none => (.failed, registry)
  | some id =>
      if ∃ name, registry.entry id = some (name, before) then
        (.ok, registry.setStatus id after)
      else (.failed, registry)

open Classical in
/-- What a session asks for; `newId` is the id that a new monitor would get. -/
noncomputable def step (newId : Id) (request : Request Id Name)
    (registry : Registry Id Name) : Outcome × Registry Id Name :=
  match request with
  | .init name =>
      if h : registry.HasName name then (.failed, registry)
      else (.ok, registry.add newId name h)
  | .run target => registry.switch .stopped .running target
  | .set target =>
      match registry.find target with
      | none => (.failed, registry)
      | some _ => (.ok, registry)
  | .stop target => registry.switch .running .stopped target

theorem setStatus_self {id : Id} {name : Name} {before : Status}
    (h : registry.entry id = some (name, before)) (status : Status) :
    (registry.setStatus id status).entry id = some (name, status) := by
  simp [setStatus, h]

theorem setStatus_ne {id other : Id} (h : other ≠ id) (status : Status) :
    (registry.setStatus id status).entry other = registry.entry other := by
  simp [setStatus, h]

theorem add_self {id : Id} {name : Name} (hfree : ¬ registry.HasName name) :
    (registry.add id name hfree).entry id = some (name, .stopped) := by
  simp [add]

theorem add_ne {id other : Id} {name : Name} (h : other ≠ id)
    (hfree : ¬ registry.HasName name) :
    (registry.add id name hfree).entry other = registry.entry other := by
  simp [add, h]

theorem switch_of_not_addressed {target : Target Id Name}
    (h : ∀ id, ¬ registry.Addressed target id) (before after : Status) :
    registry.switch before after target = (.failed, registry) := by
  rw [switch, find_of_not_addressed h]

theorem switch_of_addressed {target : Target Id Name} {id : Id} {name : Name}
    {status : Status} (h : registry.Addressed target id)
    (hentry : registry.entry id = some (name, status)) (before after : Status) :
    registry.switch before after target =
      if status = before then (.ok, registry.setStatus id after)
      else (.failed, registry) := by
  rw [switch, find_of_addressed h]
  simp [hentry]

end Registry

end TinyBpfLog
