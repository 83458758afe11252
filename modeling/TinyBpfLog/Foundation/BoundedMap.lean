import Mathlib.Data.List.Induction
import TinyBpfLog.Foundation.Table

/-!
# Hash maps of bounded capacity

A kernel hash map has room for a fixed number of entries.  An update of a key
that is present succeeds; a new key is stored while there is room, and dropped
when the map is full.  The second half is about a map that a sequence of events
updates and deletes from: what is stored under a key was put there by the last
event that touched the key.
-/

namespace TinyBpfLog.Foundation

structure BoundedMap (κ ν : Type*) [DecidableEq κ] (capacity : Nat) where
  table : AList fun _ : κ => ν
  bounded : table.entries.length ≤ capacity

namespace BoundedMap

variable {κ ν : Type*} [DecidableEq κ] {capacity : Nat}

def empty : BoundedMap κ ν capacity := ⟨∅, Nat.zero_le capacity⟩

def lookup (map : BoundedMap κ ν capacity) (key : κ) : Option ν :=
  map.table.lookup key

def update (map : BoundedMap κ ν capacity) (key : κ) (value : ν) :
    BoundedMap κ ν capacity :=
  if h : key ∈ map.table ∨ map.table.entries.length < capacity then
    { table := map.table.insert key value
      bounded := by
        have hbounded := map.bounded
        rw [length_insert]
        split
        · exact hbounded
        · next hnew => exact h.resolve_left hnew }
  else map

def delete (map : BoundedMap κ ν capacity) (key : κ) :
    BoundedMap κ ν capacity where
  table := map.table.erase key
  bounded := le_trans (List.kerase_sublist key _).length_le map.bounded

variable {map : BoundedMap κ ν capacity} {key other : κ}

/-- An update is stored, or the key was new and the map is as it was. -/
theorem update_cases (map : BoundedMap κ ν capacity) (key : κ) (value : ν) :
    (map.update key value).lookup key = some value ∨
      map.lookup key = none ∧ map.update key value = map := by
  by_cases h : key ∈ map.table ∨ map.table.entries.length < capacity
  · rw [update, dif_pos h]
    exact .inl (AList.lookup_insert _)
  · rw [update, dif_neg h]
    exact .inr ⟨AList.lookup_eq_none.mpr fun hmem => h (.inl hmem), rfl⟩

theorem lookup_update_ne (h : other ≠ key) (value : ν) :
    (map.update key value).lookup other = map.lookup other := by
  unfold update
  split
  · exact AList.lookup_insert_ne h
  · rfl

@[simp] theorem lookup_delete (key : κ) : (map.delete key).lookup key = none :=
  AList.lookup_erase key map.table

theorem lookup_delete_ne (h : other ≠ key) :
    (map.delete key).lookup other = map.lookup other :=
  AList.lookup_erase_ne h

theorem delete_of_absent (h : map.lookup key = none) : map.delete key = map := by
  have hnotMem : key ∉ map.table := AList.lookup_eq_none.mp h
  have herase : map.table.erase key = map.table := by
    apply AList.ext
    exact List.kerase_of_notMem_keys (mt AList.mem_keys.mpr hnotMem)
  simp only [delete, herase]

/-! ## The past of an entry -/

section Replay

variable {E S : Type*}

/-- What one event does to the map: it leaves it, updates it or deletes from it. -/
inductive Touch (κ ν : Type*) where
  | nothing
  | update (key : κ) (value : ν)
  | delete (key : κ)

def Touch.apply (map : BoundedMap κ ν capacity) :
    Touch κ ν → BoundedMap κ ν capacity
  | .nothing => map
  | .update key value => map.update key value
  | .delete key => map.delete key

def Touch.On (key : κ) : Touch κ ν → Prop
  | .nothing => False
  | .update other _ => other = key
  | .delete other => other = key

/-- The map after a sequence of events, from the empty map. -/
def replay (touch : E → Touch κ ν) (events : List E) :
    BoundedMap κ ν capacity :=
  events.foldl (fun map event => (touch event).apply map) empty

theorem replay_concat (touch : E → Touch κ ν) (events : List E) (event : E) :
    (replay touch (events ++ [event]) : BoundedMap κ ν capacity) =
      (touch event).apply (replay touch events) := by
  simp only [replay, List.foldl_append, List.foldl_cons, List.foldl_nil]

theorem Touch.lookup_apply {touch : Touch κ ν} (h : ¬ touch.On key) :
    (touch.apply map).lookup key = map.lookup key := by
  cases touch with
  | nothing => rfl
  | update other value => exact lookup_update_ne (Ne.symm h) value
  | delete other => exact lookup_delete_ne (Ne.symm h)

theorem Touch.eq_update {touch : Touch κ ν} (hon : touch.On key) {value : ν}
    (h : (touch.apply map).lookup key = some value) :
    touch = .update key value := by
  cases touch with
  | nothing => exact hon.elim
  | update other written =>
      cases hon
      rw [Touch.apply] at h
      rcases update_cases map key written with hstored | ⟨habsent, hsame⟩
      · cases hstored.symm.trans h
        rfl
      · rw [hsame, habsent] at h
        cases h
  | delete other =>
      cases hon
      rw [Touch.apply, lookup_delete] at h
      cases h

theorem foldl_eq_replay {touch : E → Touch κ ν} {step : S → E → S}
    {view : S → BoundedMap κ ν capacity} {start : S}
    (hstart : view start = empty)
    (hstep : ∀ s event, view (step s event) = (touch event).apply (view s))
    (events : List E) :
    view (events.foldl step start) = replay touch events := by
  induction events using List.reverseRecOn with
  | nil => exact hstart
  | append_singleton events event ih =>
      rw [List.foldl_append, List.foldl_cons, List.foldl_nil, hstep, ih,
        replay_concat]

/-- Events that do not touch a key leave its entry, stored or not, as it is. -/
theorem lookup_replay_append {touch : E → Touch κ ν} (before : List E)
    {after : List E} (h : ∀ event ∈ after, ¬ (touch event).On key) :
    (replay touch (before ++ after) : BoundedMap κ ν capacity).lookup key =
      (replay touch before : BoundedMap κ ν capacity).lookup key := by
  induction after using List.reverseRecOn with
  | nil => rw [List.append_nil]
  | append_singleton after event ih =>
      rw [← List.append_assoc, replay_concat,
        Touch.lookup_apply (h event (by simp))]
      exact ih fun event hmem => h event (by simp [hmem])

/-- An entry was written by the last event that touched its key. -/
theorem last_write {touch : E → Touch κ ν} {events : List E} {value : ν}
    (h : (replay touch events : BoundedMap κ ν capacity).lookup key =
      some value) :
    ∃ before event after, events = before ++ event :: after ∧
      touch event = .update key value ∧
      ∀ later ∈ after, ¬ (touch later).On key := by
  induction events using List.reverseRecOn with
  | nil => cases h
  | append_singleton events event ih =>
      rw [replay_concat] at h
      by_cases hon : (touch event).On key
      · exact ⟨events, event, [], rfl, Touch.eq_update hon h, by simp⟩
      · rw [Touch.lookup_apply hon] at h
        obtain ⟨before, written, after, rfl, htouch, hlater⟩ := ih h
        refine ⟨before, written, after ++ [event], by simp, htouch, ?_⟩
        intro later hmem
        rcases List.mem_append.mp hmem with hmem | hmem
        · exact hlater later hmem
        · cases List.mem_singleton.mp hmem
          exact hon

/-- The same by positions, for the map before the event at `j`. -/
theorem last_write_before {touch : E → Touch κ ν} {events : List E} {j : Nat}
    {value : ν}
    (h : (replay touch (events.take j) : BoundedMap κ ν capacity).lookup key =
      some value) :
    ∃ i event, i < j ∧ events[i]? = some event ∧
      touch event = .update key value ∧
      ∀ k later, i < k → k < j → events[k]? = some later →
        ¬ (touch later).On key := by
  obtain ⟨before, event, after, htake, htouch, hlater⟩ := last_write h
  have hlt : before.length < j := by
    have hlength := congrArg List.length htake
    rw [List.length_take, List.length_append, List.length_cons] at hlength
    omega
  refine ⟨before.length, event, hlt, ?_, htouch, fun k later hik hkj hk => ?_⟩
  · rw [← List.getElem?_take_of_lt hlt, htake]
    simp
  · rw [← List.getElem?_take_of_lt hkj, htake,
      List.getElem?_append_right (Nat.le_of_lt hik)] at hk
    obtain ⟨d, hd⟩ : ∃ d, k - before.length = d + 1 :=
      ⟨k - before.length - 1, by omega⟩
    rw [hd, List.getElem?_cons_succ] at hk
    exact hlater later (List.mem_of_getElem? hk)

end Replay

end BoundedMap

end TinyBpfLog.Foundation
