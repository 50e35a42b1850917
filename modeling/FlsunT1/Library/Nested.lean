/-
  Library/Nested.lean --- paths through values some of which are dictionaries.

  A path is a list of keys.  Inserting, replacing and removing at the end of a path are one
  operation, which differs in what it does at the last key and where a key is missing; what
  it does to every other path is proved once.
-/
import FlsunT1.Library.Dict

set_option autoImplicit false

namespace FlsunT1.Library

variable {κ V : Type}

/-- What makes some of the values of a type dictionaries. -/
structure ObjectView (κ V : Type) where
  fields : V → Option (List (κ × V))
  object : List (κ × V) → V
  fields_object : ∀ items, fields (object items) = some items

/-- Neither of two paths is on the way to the other. -/
def Apart (p q : List κ) : Prop := ¬p <+: q ∧ ¬q <+: p

theorem Apart.symm {p q : List κ} (h : Apart p q) : Apart q p := ⟨h.2, h.1⟩

theorem Apart.ne_nil {p q : List κ} (h : Apart p q) : p ≠ [] :=
  fun hp => h.1 (hp ▸ List.nil_prefix)

theorem apart_cons {k : κ} {p q : List κ} : Apart (k :: p) (k :: q) ↔ Apart p q := by
  rw [Apart, Apart, List.prefix_cons_inj, List.prefix_cons_inj]

namespace ObjectView

variable [DecidableEq κ] (view : ObjectView κ V)

/-- The value at the end of a path. -/
def getPath : List κ → V → Option V
  | [], v => some v
  | k :: ks, v => (view.fields v).bind fun items => (items.lookup k).bind (getPath ks)

/-- The items with `k` assigned or removed. -/
def putItem (k : κ) (w : Option V) (items : List (κ × V)) : List (κ × V) :=
  match w with
  | some w => Dict.setItem k w items
  | none => items.filter (·.1 ≠ k)

/-- Change what is at the end of a path.  `g` says what comes in the place of what is there, if
anything; `default` stands for a dictionary that is missing on the way. -/
def alterPath (default : Option V) (g : Option V → Option (Option V)) : List κ → V → Option V
  | [], _ => none
  | [k], v => do
      let items ← view.fields v
      let w ← g (items.lookup k)
      return view.object (putItem k w items)
  | k :: k' :: ks, v => do
      let items ← view.fields v
      let child ← (items.lookup k).or default
      let child' ← alterPath default g (k' :: ks) child
      return view.object (Dict.setItem k child' items)

theorem lookup_putItem (k x : κ) (w : Option V) (items : List (κ × V)) :
    (putItem k w items).lookup x = if x = k then w else items.lookup x := by
  cases w with
  | some w => exact Dict.lookup_setItem k x w items
  | none =>
    rw [putItem]
    induction items with
    | nil => simp
    | cons kv items ih =>
      rw [List.filter_cons]
      by_cases hkv : kv.1 = k
      · rw [if_neg (by simp [hkv]), ih, List.lookup_cons, hkv]
        by_cases hx : x = k
        · rw [if_pos hx, if_pos hx]
        · rw [if_neg hx, if_neg hx, beq_false_of_ne hx]
      · rw [if_pos (by simp [hkv]), List.lookup_cons, List.lookup_cons]
        cases hx : x == kv.1 with
        | false => exact ih
        | true =>
          have hne : x ≠ k := fun h => hkv ((eq_of_beq hx).symm.trans h)
          rw [if_neg hne]

variable {view} {default : Option V} {g : Option V → Option (Option V)}

/-- The cases of a change: at the last key, and further down. -/
theorem alterPath_cases {k : κ} {ks : List κ} {v v' : V}
    (h : view.alterPath default g (k :: ks) v = some v') :
    ∃ items, view.fields v = some items ∧
      ((ks = [] ∧ ∃ w, g (items.lookup k) = some w ∧ v' = view.object (putItem k w items)) ∨
        (ks ≠ [] ∧ ∃ child child', (items.lookup k).or default = some child ∧
          view.alterPath default g ks child = some child' ∧
          v' = view.object (Dict.setItem k child' items))) := by
  cases ks with
  | nil =>
    rw [alterPath] at h
    obtain ⟨items, hitems, h⟩ := Option.bind_eq_some_iff.mp h
    obtain ⟨w, hw, h⟩ := Option.bind_eq_some_iff.mp h
    exact ⟨items, hitems, Or.inl ⟨rfl, w, hw, (Option.some.inj h).symm⟩⟩
  | cons k' ks =>
    rw [alterPath] at h
    obtain ⟨items, hitems, h⟩ := Option.bind_eq_some_iff.mp h
    obtain ⟨child, hchild, h⟩ := Option.bind_eq_some_iff.mp h
    obtain ⟨child', hchild', h⟩ := Option.bind_eq_some_iff.mp h
    exact ⟨items, hitems, Or.inr ⟨List.cons_ne_nil _ _, child, child', hchild, hchild',
      (Option.some.inj h).symm⟩⟩

theorem getPath_object (k : κ) (ks : List κ) (items : List (κ × V)) :
    view.getPath (k :: ks) (view.object items) = (items.lookup k).bind (view.getPath ks) := by
  rw [getPath, view.fields_object, Option.bind_some]

/-- What comes in the place of what was there is found at the end of the path. -/
theorem getPath_alterPath {ks : List κ} {v v' : V} (h : view.alterPath default g ks v = some v')
    (hdefault : ∀ e ∈ default, view.fields e = some []) :
    g (view.getPath ks v) = some (view.getPath ks v') := by
  induction ks generalizing v v' with
  | nil => cases h
  | cons k ks ih =>
    obtain ⟨items, hitems, ⟨rfl, w, hw, rfl⟩ | ⟨hne, child, child', hchild, halter, rfl⟩⟩ :=
      alterPath_cases h
    · rw [getPath_object, lookup_putItem, if_pos rfl, getPath, hitems, Option.bind_some]
      have hself (o : Option V) : o.bind (view.getPath []) = o := by cases o <;> rfl
      rw [hself, hself, hw]
    · rw [getPath_object, Dict.lookup_setItem, if_pos rfl, Option.bind_some, ← ih halter,
        getPath, hitems, Option.bind_some]
      congr 1
      cases hlookup : items.lookup k with
      | some c =>
        rw [hlookup, Option.some_or] at hchild
        rw [Option.some.inj hchild, Option.bind_some]
      | none =>
        rw [hlookup, Option.none_or] at hchild
        obtain ⟨k', ks', rfl⟩ := List.exists_cons_of_ne_nil hne
        rw [Option.bind_none, getPath, hdefault child hchild]
        rfl

/-- Paths apart from the one that changes keep what they lead to. -/
theorem getPath_alterPath_apart {ks p : List κ} {v v' : V}
    (h : view.alterPath default g ks v = some v') (hapart : Apart p ks)
    (hdefault : ∀ e ∈ default, view.fields e = some []) :
    view.getPath p v' = view.getPath p v := by
  induction ks generalizing v v' p with
  | nil => exact absurd rfl hapart.symm.ne_nil
  | cons k ks ih =>
    obtain ⟨x, p, rfl⟩ := List.exists_cons_of_ne_nil hapart.ne_nil
    obtain ⟨items, hitems, ⟨rfl, w, hw, rfl⟩ | ⟨hne, child, child', hchild, halter, rfl⟩⟩ :=
      alterPath_cases h
    · have hx : x ≠ k := fun heq => hapart.2 (heq ▸ List.cons_prefix_cons.mpr ⟨rfl, List.nil_prefix⟩)
      rw [getPath_object, lookup_putItem, if_neg hx, getPath, hitems, Option.bind_some]
    · rw [getPath_object, Dict.lookup_setItem, getPath, hitems, Option.bind_some]
      by_cases hx : x = k
      · subst hx
        have hapart' := apart_cons.mp hapart
        rw [if_pos rfl, Option.bind_some, ih halter hapart']
        cases hlookup : items.lookup x with
        | some c =>
          rw [hlookup, Option.some_or] at hchild
          rw [Option.some.inj hchild, Option.bind_some]
        | none =>
          rw [hlookup, Option.none_or] at hchild
          obtain ⟨y, p', rfl⟩ := List.exists_cons_of_ne_nil hapart'.ne_nil
          rw [Option.bind_none, getPath, hdefault child hchild]
          rfl
      · rw [if_neg hx]

end ObjectView

end FlsunT1.Library
