import Mathlib.Data.List.AList

/-!
# Hash tables with an unspecified iteration order

A hash table is an `AList` listed in its current iteration order.  Changing a
value in place keeps that order; storing under a key may rearrange the whole
table, in any way a `Layout` allows.
-/

namespace TinyBpfLog.Foundation

variable {α : Type*} {β : α → Type*} [DecidableEq α]

/-- A rearrangement of a table's entries, as a hash table may choose it. -/
structure Layout (β : α → Type*) where
  arrange : List (Sigma β) → List (Sigma β)
  perm : ∀ entries, (arrange entries).Perm entries

def Layout.newestFirst : Layout β where
  arrange entries := entries
  perm entries := List.Perm.refl entries

/-- `table[key] = value`: overwrite or add, then rearrange. -/
def store (layout : Layout β) (key : α) (value : β key) (table : AList β) :
    AList β where
  entries := layout.arrange (table.insert key value).entries
  nodupKeys :=
    (List.perm_nodupKeys (layout.perm _)).mpr (table.insert key value).nodupKeys

theorem store_perm (layout : Layout β) (key : α) (value : β key)
    (table : AList β) :
    (store layout key value table).entries.Perm
      (table.insert key value).entries :=
  layout.perm _

@[simp] theorem lookup_store (layout : Layout β) (key : α) (value : β key)
    (table : AList β) :
    (store layout key value table).lookup key = some value := by
  rw [AList.perm_lookup (store_perm layout key value table),
    AList.lookup_insert]

theorem lookup_store_ne (layout : Layout β) {key other : α} (h : other ≠ key)
    (value : β key) (table : AList β) :
    (store layout key value table).lookup other = table.lookup other := by
  rw [AList.perm_lookup (store_perm layout key value table),
    AList.lookup_insert_ne h]

theorem length_insert (key : α) (value : β key) (table : AList β) :
    (table.insert key value).entries.length =
      if key ∈ table then table.entries.length
      else table.entries.length + 1 := by
  by_cases h : key ∈ table
  · obtain ⟨old, front, rest, -, hentries, herase⟩ :=
      List.exists_of_kerase (AList.mem_keys.mp h)
    rw [if_pos h, AList.entries_insert, List.length_cons, herase,
      show table.entries = _ from hentries]
    simp
    omega
  · rw [if_neg h, AList.entries_insert_of_notMem h, List.length_cons]

theorem length_store (layout : Layout β) (key : α) (value : β key)
    (table : AList β) :
    (store layout key value table).entries.length =
      if key ∈ table then table.entries.length
      else table.entries.length + 1 := by
  rw [(store_perm layout key value table).length_eq, length_insert]

private theorem kreplace_cons_self (key : α) (old value : β key)
    (entries : List (Sigma β)) :
    (⟨key, old⟩ :: entries).kreplace key value = ⟨key, value⟩ :: entries :=
  List.lookmap_cons_some _ _ (by simp)

private theorem kreplace_cons_ne {key : α} {entry : Sigma β}
    (h : key ≠ entry.1) (value : β key) (entries : List (Sigma β)) :
    (entry :: entries).kreplace key value =
      entry :: entries.kreplace key value :=
  List.lookmap_cons_none _ _ (by simp [h])

private theorem dlookup_kreplace (key : α) (value : β key)
    (entries : List (Sigma β)) (h : key ∈ entries.keys) :
    (entries.kreplace key value).dlookup key = some value := by
  induction entries with
  | nil => simp at h
  | cons entry entries ih =>
      by_cases hk : key = entry.1
      · obtain ⟨k, old⟩ := entry
        subst hk
        rw [kreplace_cons_self, List.dlookup_cons_eq]
      · have hmem : key ∈ entries.keys := by simpa [hk] using h
        rw [kreplace_cons_ne hk, List.dlookup_cons_ne _ _ hk, ih hmem]

private theorem dlookup_kreplace_ne {key other : α} (hne : other ≠ key)
    (value : β key) (entries : List (Sigma β)) :
    (entries.kreplace key value).dlookup other = entries.dlookup other := by
  induction entries with
  | nil => rfl
  | cons entry entries ih =>
      by_cases hk : key = entry.1
      · obtain ⟨k, old⟩ := entry
        subst hk
        rw [kreplace_cons_self, List.dlookup_cons_ne _ _ hne,
          List.dlookup_cons_ne _ _ hne]
      · rw [kreplace_cons_ne hk]
        by_cases ho : other = entry.1
        · obtain ⟨k, value'⟩ := entry
          subst ho
          rw [List.dlookup_cons_eq, List.dlookup_cons_eq]
        · rw [List.dlookup_cons_ne _ _ ho, List.dlookup_cons_ne _ _ ho, ih]

theorem lookup_replace {key : α} {table : AList β} (h : key ∈ table)
    (value : β key) : (table.replace key value).lookup key = some value :=
  dlookup_kreplace key value table.entries (AList.mem_keys.mp h)

theorem lookup_replace_ne {key other : α} (h : other ≠ key) (value : β key)
    (table : AList β) :
    (table.replace key value).lookup other = table.lookup other :=
  dlookup_kreplace_ne h value table.entries

theorem mem_of_lookup {key : α} {value : β key} {table : AList β}
    (h : table.lookup key = some value) : key ∈ table := by
  rw [← AList.lookup_isSome, h]
  rfl

theorem mem_entries_iff {key : α} {value : β key} {table : AList β} :
    ⟨key, value⟩ ∈ table.entries ↔ table.lookup key = some value := by
  rw [← AList.mem_lookup_iff, Option.mem_def]

end TinyBpfLog.Foundation
