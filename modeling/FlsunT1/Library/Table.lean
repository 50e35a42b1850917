/-
  Library/Table.lean --- finite maps without an order of their keys.

  Two tables that read the same are equal.
-/
import Mathlib.Data.Finmap

set_option autoImplicit false

namespace FlsunT1.Library

variable {α β γ : Type}

/-- A table from `α` to `β`. -/
abbrev Table (α β : Type) := Finmap fun _ : α => β

namespace Table

/-- The table without entries. -/
def empty : Table α β := ∅

variable [DecidableEq α]

/-- What is under a key. -/
def get (k : α) (t : Table α β) : Option β := Finmap.lookup k t

/-- The table with `v` under `k`. -/
def set (k : α) (v : β) (t : Table α β) : Table α β := Finmap.insert k v t

/-- The table without `k`. -/
def erase (k : α) (t : Table α β) : Table α β := Finmap.erase k t

@[simp] theorem get_empty (k : α) : (empty : Table α β).get k = none := Finmap.lookup_empty k

@[simp] theorem get_set (k x : α) (v : β) (t : Table α β) :
    (t.set k v).get x = if x = k then some v else t.get x := by
  by_cases hx : x = k
  · subst hx
    rw [if_pos rfl]
    exact Finmap.lookup_insert t
  · rw [if_neg hx]
    exact Finmap.lookup_insert_of_ne t hx

@[simp] theorem get_erase (k x : α) (t : Table α β) :
    (t.erase k).get x = if x = k then none else t.get x := by
  by_cases hx : x = k
  · subst hx
    rw [if_pos rfl]
    exact Finmap.lookup_erase x t
  · rw [if_neg hx]
    exact Finmap.lookup_erase_ne hx

theorem get_eq_some_iff {t : Table α β} {k : α} {v : β} :
    t.get k = some v ↔ ⟨k, v⟩ ∈ t.entries := Finmap.lookup_eq_some_iff

/-- What becomes of an entry. -/
def mapEntry (f : α → β → Option γ) (e : (_ : α) × β) : Option ((_ : α) × γ) :=
  (f e.1 e.2).map (Sigma.mk e.1)

omit [DecidableEq α] in
theorem nodupKeys_filterMap (f : α → β → Option γ) (t : Table α β) :
    (t.entries.filterMap (mapEntry f)).NodupKeys := by
  obtain ⟨⟨items⟩, hitems⟩ := t
  show (items.filterMap (mapEntry f)).NodupKeys
  have hitems' : items.NodupKeys := hitems
  clear hitems
  induction items with
  | nil => exact List.nodupKeys_nil
  | cons e items ih =>
    obtain ⟨he, hrest⟩ := List.nodupKeys_cons.mp hitems'
    rw [List.filterMap_cons, mapEntry]
    cases hf : f e.1 e.2 with
    | none => exact ih hrest
    | some w =>
      refine List.nodupKeys_cons.mpr ⟨fun hmem => he ?_, ih hrest⟩
      obtain ⟨e', he', hkey⟩ := List.mem_map.mp hmem
      obtain ⟨e'', he'', hw⟩ := List.mem_filterMap.mp he'
      obtain ⟨w', -, rfl⟩ := Option.map_eq_some_iff.mp hw
      exact List.mem_map.mpr ⟨e'', he'', hkey⟩

/-- The entries for which `f` gives something. -/
def filterMap (f : α → β → Option γ) (t : Table α β) : Table α γ :=
  ⟨t.entries.filterMap (mapEntry f), nodupKeys_filterMap f t⟩

@[simp] theorem get_filterMap (f : α → β → Option γ) (t : Table α β) (k : α) :
    (t.filterMap f).get k = (t.get k).bind (f k) := by
  apply Option.ext
  intro w
  rw [get_eq_some_iff, filterMap, Multiset.mem_filterMap, Option.bind_eq_some_iff]
  constructor
  · rintro ⟨e, he, hw⟩
    obtain ⟨w', hf, heq⟩ := Option.map_eq_some_iff.mp hw
    cases heq
    exact ⟨e.2, get_eq_some_iff.mpr he, hf⟩
  · rintro ⟨v, hv, hf⟩
    exact ⟨⟨k, v⟩, get_eq_some_iff.mp hv, by rw [mapEntry, hf]; rfl⟩

/-- The table of what `f` gives for the entries, if it gives something for each of them. -/
def mapM (f : α → β → Option γ) (t : Table α β) : Option (Table α γ) :=
  if t.keys = (t.filterMap f).keys then some (t.filterMap f) else none

theorem get_mapM {f : α → β → Option γ} {t : Table α β} {t' : Table α γ} (h : t.mapM f = some t')
    (k : α) : t'.get k = (t.get k).bind (f k) := by
  rw [mapM] at h
  split at h
  · rw [← Option.some.inj h, get_filterMap]
  · cases h

/-- What is in the table got something. -/
theorem exists_of_mapM {f : α → β → Option γ} {t : Table α β} {t' : Table α γ}
    (h : t.mapM f = some t') {k : α} {v : β} (hv : t.get k = some v) : ∃ w, f k v = some w := by
  rw [mapM] at h
  split at h
  · rename_i hkeys
    have hk : k ∈ (t.filterMap f).keys := by
      rw [← hkeys, Finmap.mem_keys, Finmap.mem_iff]
      exact ⟨v, hv⟩
    rw [Finmap.mem_keys, Finmap.mem_iff] at hk
    obtain ⟨w, hw⟩ := hk
    have hget : (t.filterMap f).get k = some w := hw
    rw [get_filterMap, hv, Option.bind_some] at hget
    exact ⟨w, hget⟩
  · cases h

theorem keys_ne_empty {t : Table α β} {k : α} (h : t.get k ≠ none) : t.keys ≠ ∅ := by
  obtain ⟨v, hv⟩ := Option.ne_none_iff_exists'.mp h
  have hk : k ∈ t.keys := by
    rw [Finmap.mem_keys, Finmap.mem_iff]
    exact ⟨v, hv⟩
  exact Finset.ne_empty_of_mem hk

/-- Where `f` gives something for each entry, there is the table of it. -/
theorem mapM_of_forall {f : α → β → Option γ} {t : Table α β}
    (h : ∀ k v, t.get k = some v → ∃ w, f k v = some w) : t.mapM f = some (t.filterMap f) := by
  rw [mapM, if_pos]
  apply Finset.ext
  intro k
  rw [Finmap.mem_keys, Finmap.mem_keys, Finmap.mem_iff, Finmap.mem_iff]
  have hget : Finmap.lookup k (t.filterMap f) = (Finmap.lookup k t).bind (f k) :=
    get_filterMap f t k
  rw [hget]
  constructor
  · rintro ⟨v, hv⟩
    obtain ⟨w, hw⟩ := h k v hv
    exact ⟨w, by rw [hv, Option.bind_some, hw]⟩
  · rintro ⟨w, hw⟩
    obtain ⟨v, hv, -⟩ := Option.bind_eq_some_iff.mp hw
    exact ⟨v, hv⟩

/-- A table of tables, read at two keys. -/
def get₂ [DecidableEq γ] (k : α) (x : γ) (t : Table α (Table γ β)) : Option β :=
  (t.get k).bind (Table.get x)

end Table

end FlsunT1.Library
