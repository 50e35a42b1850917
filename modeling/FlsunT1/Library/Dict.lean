/-
  Library/Dict.lean --- dictionaries that keep the order of insertion.

  A dictionary is the list of its items, whose keys are distinct by construction.
  Assigning to a key that is there keeps its place; a new key comes last.  What
  a loop of assignments leaves is read off the list it goes over.
-/
import Mathlib.Data.List.Nodup

set_option autoImplicit false

namespace FlsunT1.Library

variable {α β γ : Type*}

/-- A dictionary from `α` to `β`. -/
structure Dict (α β : Type*) where
  items : List (α × β)
  nodup : (items.map Prod.fst).Nodup

namespace Dict

/-- The dictionary without items. -/
def empty : Dict α β := ⟨[], List.nodup_nil⟩

instance [DecidableEq α] [DecidableEq β] : DecidableEq (Dict α β) := fun d e =>
  decidable_of_iff (d.items = e.items) ⟨fun h => by cases d; cases e; cases h; rfl, fun h => h ▸ rfl⟩

variable [DecidableEq α]

/-- The items after assigning `v` to `k`. -/
def setItem (k : α) (v : β) : List (α × β) → List (α × β)
  | [] => [(k, v)]
  | (k', v') :: items => if k = k' then (k, v) :: items else (k', v') :: setItem k v items

theorem mem_keys_setItem {k x : α} {v : β} {items : List (α × β)} :
    x ∈ (setItem k v items).map Prod.fst ↔ x = k ∨ x ∈ items.map Prod.fst := by
  induction items with
  | nil => simp [setItem]
  | cons kv items ih =>
    obtain ⟨k', v'⟩ := kv
    rw [setItem]
    split
    · next heq => simp [heq]
    · simp only [List.map_cons, List.mem_cons, ih]
      exact or_left_comm

theorem nodup_setItem (k : α) (v : β) {items : List (α × β)}
    (h : (items.map Prod.fst).Nodup) : ((setItem k v items).map Prod.fst).Nodup := by
  induction items with
  | nil => exact List.nodup_singleton _
  | cons kv items ih =>
    obtain ⟨k', v'⟩ := kv
    obtain ⟨hk', hitems⟩ := List.nodup_cons.mp h
    rw [setItem]
    split
    · next heq => exact heq ▸ h
    · next hne =>
      refine List.nodup_cons.mpr ⟨?_, ih hitems⟩
      rw [mem_keys_setItem]
      exact fun hmem => hmem.elim (fun heq => hne heq.symm) hk'

/-- `d[k] = v` -/
def set (k : α) (v : β) (d : Dict α β) : Dict α β := ⟨setItem k v d.items, nodup_setItem k v d.nodup⟩

/-- `d.get(k)` -/
def get (k : α) (d : Dict α β) : Option β := d.items.lookup k

/-- The loop that assigns the items of a list, one after another. -/
def setAll (items : List (α × β)) (d : Dict α β) : Dict α β :=
  items.foldl (fun d kv => d.set kv.1 kv.2) d

/-- `d.update(e)` -/
def update (d e : Dict α β) : Dict α β := d.setAll e.items

/-- The same keys, with the function `f` of each value. -/
def mapVals (f : β → γ) (d : Dict α β) : Dict α γ :=
  ⟨d.items.map fun kv => (kv.1, f kv.2), by
    rw [List.map_map]
    exact d.nodup⟩

/-! ## Reading -/

theorem lookup_eq_some_iff {items : List (α × β)} (h : (items.map Prod.fst).Nodup) {k : α} {v : β} :
    items.lookup k = some v ↔ (k, v) ∈ items := by
  induction items with
  | nil => simp
  | cons kv items ih =>
    obtain ⟨k', v'⟩ := kv
    obtain ⟨hk', hitems⟩ := List.nodup_cons.mp h
    rw [List.lookup_cons]
    by_cases heq : k = k'
    · subst heq
      rw [beq_self_eq_true, List.mem_cons]
      constructor
      · intro hv
        exact Or.inl (by rw [Option.some.inj hv])
      · rintro (hv | hv)
        · rw [(Prod.mk.inj hv).2]
        · exact absurd (List.mem_map_of_mem hv) hk'
    · have hbeq : (k == k') = false := beq_false_of_ne heq
      simp only [hbeq, List.mem_cons, Prod.mk.injEq, heq, false_and, false_or]
      exact ih hitems

theorem get_eq_some_iff {d : Dict α β} {k : α} {v : β} : d.get k = some v ↔ (k, v) ∈ d.items :=
  lookup_eq_some_iff d.nodup

@[simp] theorem get_empty (k : α) : (empty : Dict α β).get k = none := rfl

theorem lookup_setItem (k x : α) (v : β) (items : List (α × β)) :
    (setItem k v items).lookup x = if x = k then some v else items.lookup x := by
  induction items with
  | nil =>
    by_cases hx : x = k
    · simp [setItem, hx]
    · simp [setItem, hx, List.lookup_cons, beq_false_of_ne hx]
  | cons kv items ih =>
    obtain ⟨k', v'⟩ := kv
    rw [setItem]
    split
    · next heq =>
      subst heq
      by_cases hx : x = k
      · simp [hx]
      · simp [hx, List.lookup_cons, beq_false_of_ne hx]
    · next hne =>
      rw [List.lookup_cons, List.lookup_cons, ih]
      by_cases hx : x = k'
      · simp [hx, Ne.symm hne]
      · simp [beq_false_of_ne hx]

@[simp] theorem get_set (k x : α) (v : β) (d : Dict α β) :
    (d.set k v).get x = if x = k then some v else d.get x :=
  lookup_setItem k x v d.items

/-- The last assignment to a key counts. -/
theorem get_setAll (items : List (α × β)) (d : Dict α β) (x : α) :
    (d.setAll items).get x = (items.reverse.lookup x).or (d.get x) := by
  induction items generalizing d with
  | nil => rfl
  | cons kv items ih =>
    rw [setAll, List.foldl_cons, ← setAll, ih, get_set, List.reverse_cons, List.lookup_append,
      Option.or_assoc]
    congr 1
    obtain ⟨k, v⟩ := kv
    by_cases hx : x = k
    · simp [hx]
    · simp [hx, List.lookup_cons, beq_false_of_ne hx]

/-- Of distinct keys, it does not matter in which order they are looked up. -/
theorem lookup_perm {items items' : List (α × β)} (h : (items.map Prod.fst).Nodup)
    (hperm : items.Perm items') (x : α) : items.lookup x = items'.lookup x := by
  have h' : (items'.map Prod.fst).Nodup := ((hperm.map _).nodup_iff).mp h
  apply Option.ext
  intro v
  rw [lookup_eq_some_iff h, lookup_eq_some_iff h', hperm.mem_iff]

@[simp] theorem get_update (d e : Dict α β) (x : α) :
    (d.update e).get x = (e.get x).or (d.get x) := by
  rw [update, get_setAll]
  exact congrArg (Option.or · _) (lookup_perm e.nodup (List.reverse_perm _).symm x).symm

/-- A copy reads the same. -/
@[simp] theorem get_setAll_items (d : Dict α β) (x : α) : (empty.setAll d.items).get x = d.get x := by
  rw [← update, get_update, get_empty, Option.or_none]

/-- Distinct keys in any order: each has the value that comes with it. -/
theorem get_setAll_perm {items : List (α × β)} {d : Dict α β} (hperm : items.Perm d.items) (x : α) :
    (empty.setAll items).get x = d.get x := by
  rw [get_setAll, get_empty, Option.or_none]
  exact (lookup_perm d.nodup (hperm.symm.trans (List.reverse_perm _).symm) x).symm

theorem set_mapVals (f : β → γ) (k : α) (v : β) (d : Dict α β) :
    (d.mapVals f).set k (f v) = (d.set k v).mapVals f := by
  simp only [set, mapVals, mk.injEq]
  induction d.items with
  | nil => rfl
  | cons kv items ih =>
    simp only [setItem, List.map_cons]
    split
    · rfl
    · exact congrArg _ ih

/-- Assigning and then applying a function to the values. -/
theorem setAll_mapVals (f : β → γ) (items : List (α × β)) (d : Dict α β) :
    (d.mapVals f).setAll (items.map fun kv => (kv.1, f kv.2)) = (d.setAll items).mapVals f := by
  induction items generalizing d with
  | nil => rfl
  | cons kv items ih =>
    simp only [setAll, List.map_cons, List.foldl_cons] at ih ⊢
    rw [set_mapVals]
    exact ih _

/-- Of two assignments to one key the second counts. -/
theorem set_set (k : α) (v w : β) (d : Dict α β) : (d.set k v).set k w = d.set k w := by
  simp only [set, mk.injEq]
  induction d.items with
  | nil => simp [setItem]
  | cons kv items ih =>
    obtain ⟨k', v'⟩ := kv
    by_cases hk : k = k'
    · simp [setItem, hk]
    · simp only [setItem, hk, if_false]
      exact congrArg _ ih

/-- Assigning the value that is there changes nothing. -/
theorem set_of_get {k : α} {v : β} {d : Dict α β} (h : d.get k = some v) : d.set k v = d := by
  cases d with
  | mk items nodup =>
    simp only [set, mk.injEq]
    simp only [get] at h
    clear nodup
    induction items with
    | nil => cases h
    | cons kv items ih =>
      obtain ⟨k', v'⟩ := kv
      by_cases hk : k = k'
      · subst hk
        rw [List.lookup_cons, beq_self_eq_true, Option.some.injEq] at h
        rw [setItem, if_pos rfl, h]
      · rw [List.lookup_cons, beq_false_of_ne hk] at h
        rw [setItem, if_neg hk, ih h]

theorem setItem_of_not_mem {k : α} {v : β} {items : List (α × β)}
    (h : k ∉ items.map Prod.fst) : setItem k v items = items ++ [(k, v)] := by
  induction items with
  | nil => rfl
  | cons kv items ih =>
    rw [List.map_cons, List.mem_cons, not_or] at h
    rw [setItem, if_neg h.1, ih h.2, List.cons_append]

/-- Assigning the items to the empty dictionary makes the dictionary anew. -/
theorem setAll_items (d : Dict α β) : empty.setAll d.items = d := by
  suffices ∀ (items : List (α × β)) (e : Dict α β),
      ((e.items ++ items).map Prod.fst).Nodup → (e.setAll items).items = e.items ++ items by
    have h := this d.items empty d.nodup
    cases hd : empty.setAll d.items with
    | mk items nodup =>
      rw [hd] at h
      cases d
      cases h
      rfl
  intro items
  induction items with
  | nil => exact fun e _ => (List.append_nil _).symm
  | cons kv items ih =>
    intro e h
    rw [setAll, List.foldl_cons, ← setAll]
    have hfresh : kv.1 ∉ e.items.map Prod.fst := by
      rw [List.map_append, List.map_cons] at h
      exact fun hmem => (List.nodup_append.mp h).2.2 _ hmem _ List.mem_cons_self rfl
    have hset : (e.set kv.1 kv.2).items = e.items ++ [kv] := setItem_of_not_mem hfresh
    rw [ih, hset, List.append_assoc, List.singleton_append]
    rw [hset, List.append_assoc, List.singleton_append]
    exact h

/-- The keys after a loop of assignments. -/
theorem mem_keys_setAll {items : List (α × β)} {d : Dict α β} {x : α} :
    x ∈ (d.setAll items).items.map Prod.fst ↔
      x ∈ items.map Prod.fst ∨ x ∈ d.items.map Prod.fst := by
  induction items generalizing d with
  | nil => simp [setAll]
  | cons kv items ih =>
    rw [setAll, List.foldl_cons, ← setAll, ih, set, mem_keys_setItem, List.map_cons, List.mem_cons,
      or_left_comm, or_assoc]

/-! ## Removing and mapping -/

/-- `list(d.keys())` -/
def keys (d : Dict α β) : List α := d.items.map Prod.fst

theorem mem_keys_iff {d : Dict α β} {k : α} : k ∈ d.keys ↔ ∃ v, d.get k = some v := by
  rw [keys, List.mem_map]
  constructor
  · rintro ⟨⟨k', v⟩, hmem, rfl⟩
    exact ⟨v, get_eq_some_iff.mpr hmem⟩
  · rintro ⟨v, hv⟩
    exact ⟨(k, v), get_eq_some_iff.mp hv, rfl⟩

/-- `del d[k]`, or nothing where `k` is no key. -/
def erase (k : α) (d : Dict α β) : Dict α β :=
  ⟨d.items.filter (·.1 ≠ k), d.nodup.sublist (List.filter_sublist.map _)⟩

theorem lookup_eq_none {items : List (α × β)} {x : α}
    (h : x ∉ items.map Prod.fst) : items.lookup x = none := by
  induction items with
  | nil => rfl
  | cons kv items ih =>
    obtain ⟨hkv, hitems⟩ := List.ne_and_not_mem_of_not_mem_cons h
    rw [List.lookup_cons, beq_false_of_ne hkv]
    exact ih hitems

@[simp] theorem get_erase (k x : α) (d : Dict α β) :
    (d.erase k).get x = if x = k then none else d.get x := by
  apply Option.ext
  intro v
  rw [get_eq_some_iff, erase, List.mem_filter, ← get_eq_some_iff]
  by_cases hx : x = k
  · simp [hx]
  · simp [hx]

/-- A loop over the items with a state: each key keeps what `f` gives for it, if anything. -/
def mapAccumItems {σ : Type*} (f : σ → α → β → σ × Option γ) : σ → List (α × β) → σ × List (α × γ)
  | s, [] => (s, [])
  | s, (k, v) :: items =>
      let (s, w) := f s k v
      let (s, rest) := mapAccumItems f s items
      (s, match w with
        | some w => (k, w) :: rest
        | none => rest)

omit [DecidableEq α] in
theorem mapAccumItems_sublist {σ : Type*} (f : σ → α → β → σ × Option γ) (s : σ)
    (items : List (α × β)) :
    ((mapAccumItems f s items).2.map Prod.fst).Sublist (items.map Prod.fst) := by
  induction items generalizing s with
  | nil => exact List.Sublist.refl _
  | cons kv items ih =>
    obtain ⟨k, v⟩ := kv
    simp only [mapAccumItems]
    cases (f s k v).2 with
    | none => exact (ih (f s k v).1).cons _
    | some w => exact (ih (f s k v).1).cons_cons _

/-- The loop over the items of a dictionary. -/
def mapAccum {σ : Type*} (f : σ → α → β → σ × Option γ) (s : σ) (d : Dict α β) : σ × Dict α γ :=
  ((mapAccumItems f s d.items).1, ⟨_, d.nodup.sublist (mapAccumItems_sublist f s d.items)⟩)

omit [DecidableEq α] in
/-- The state after the loop. -/
theorem mapAccum_fst {σ : Type*} (f : σ → α → β → σ × Option γ) (s : σ) (d : Dict α β) :
    (d.mapAccum f s).1 = d.items.foldl (fun s kv => (f s kv.1 kv.2).1) s := by
  suffices ∀ items s, (mapAccumItems f s items).1 =
      items.foldl (fun s kv => (f s kv.1 kv.2).1) s from this d.items s
  intro items
  induction items with
  | nil => intro s; rfl
  | cons kv items ih => intro s; exact ih _

/-- The rule for the loop: what each round gives for its key, as long as an invariant of
the state holds, is what the key has after the loop. -/
theorem mapAccum_rule {σ : Type*} {f : σ → α → β → σ × Option γ} {P : σ → Prop}
    {R : α → β → Option γ → Prop}
    (hf : ∀ s k v, P s → P (f s k v).1 ∧ R k v (f s k v).2) {s : σ} (hs : P s) (d : Dict α β) :
    P (d.mapAccum f s).1 ∧ ∀ x, (d.get x = none → (d.mapAccum f s).2.get x = none) ∧
      ∀ v, d.get x = some v → R x v ((d.mapAccum f s).2.get x) := by
  suffices ∀ items s, P s → (items.map Prod.fst).Nodup →
      P (mapAccumItems f s items).1 ∧
        ∀ x, (items.lookup x = none → (mapAccumItems f s items).2.lookup x = none) ∧
          ∀ v, items.lookup x = some v → R x v ((mapAccumItems f s items).2.lookup x) from
    this d.items s hs d.nodup
  intro items
  induction items with
  | nil => exact fun s hs _ => ⟨hs, fun _ => ⟨fun _ => rfl, (fun _ hv => nomatch hv)⟩⟩
  | cons kv items ih =>
    intro s hs hnodup
    obtain ⟨k, v⟩ := kv
    obtain ⟨hP, hR⟩ := hf s k v hs
    obtain ⟨hk, hitems⟩ := List.nodup_cons.mp hnodup
    obtain ⟨hP', hlookup⟩ := ih (f s k v).1 hP hitems
    refine ⟨hP', fun x => ?_⟩
    have hmiss : (mapAccumItems f (f s k v).1 items).2.lookup k = none :=
      (hlookup k).1 (lookup_eq_none hk)
    by_cases hx : x = k
    · subst hx
      rw [List.lookup_cons, beq_self_eq_true]
      refine ⟨(fun hv => nomatch hv), fun w hw => ?_⟩
      obtain rfl := Option.some.inj hw
      simp only [mapAccumItems]
      cases hgx : (f s x v).2 with
      | none =>
        rw [hgx] at hR
        exact hmiss.symm ▸ hR
      | some w =>
        rw [hgx] at hR
        simpa only [List.lookup_cons, beq_self_eq_true] using hR
    · rw [List.lookup_cons, beq_false_of_ne hx]
      have hrest : (mapAccumItems f s ((k, v) :: items)).2.lookup x =
          (mapAccumItems f (f s k v).1 items).2.lookup x := by
        simp only [mapAccumItems]
        cases (f s k v).2 with
        | none => rfl
        | some w => simp only [List.lookup_cons, beq_false_of_ne hx]
      rw [hrest]
      exact hlookup x

/-- The rule for a loop whose rounds give what does not depend on the state. -/
theorem mapAccum_spec {σ : Type*} {f : σ → α → β → σ × Option γ} {g : α → β → Option γ}
    {P : σ → Prop} (hf : ∀ s k v, P s → P (f s k v).1 ∧ (f s k v).2 = g k v) {s : σ} (hs : P s)
    (d : Dict α β) :
    P (d.mapAccum f s).1 ∧ ∀ x, (d.mapAccum f s).2.get x = (d.get x).bind (g x) := by
  obtain ⟨hP, hget⟩ := mapAccum_rule (R := fun k v w => w = g k v) hf hs d
  refine ⟨hP, fun x => ?_⟩
  cases hx : d.get x with
  | none => exact (hget x).1 hx
  | some v => exact (hget x).2 v hx

@[simp] theorem get_mapVals (f : β → γ) (d : Dict α β) (x : α) :
    (d.mapVals f).get x = (d.get x).map f := by
  suffices ∀ items : List (α × β),
      (items.map fun kv => (kv.1, f kv.2)).lookup x = (items.lookup x).map f from this d.items
  intro items
  induction items with
  | nil => rfl
  | cons kv items ih =>
    rw [List.map_cons, List.lookup_cons, List.lookup_cons]
    cases x == kv.1 with
    | false => exact ih
    | true => rfl

/-- The keys for which `f` gives something. -/
def filterMapVals (f : β → Option γ) (d : Dict α β) : Dict α γ :=
  (d.mapAccum (fun (_ : Unit) _ v => ((), f v)) ()).2

@[simp] theorem get_filterMapVals (f : β → Option γ) (d : Dict α β) (x : α) :
    (d.filterMapVals f).get x = (d.get x).bind f :=
  (mapAccum_spec (g := fun _ v => f v) (P := fun _ => True) (fun _ _ _ _ => ⟨trivial, rfl⟩)
    trivial d).2 x

/-- The loop that assigns what `g` makes of each value, if it came to its end. -/
theorem mapVals_of_foldlM {g : β → Option γ} {d : Dict α β} {e : Dict α γ}
    (h : d.items.foldlM (fun acc kv => (g kv.2).map fun w => acc.set kv.1 w) empty = some e) :
    e.mapVals some = d.mapVals g := by
  have hloop : ∀ (items : List (α × β)) (acc : Dict α γ),
      items.foldlM (fun acc kv => (g kv.2).map fun w => acc.set kv.1 w) acc = some e →
        e.mapVals some = (acc.mapVals some).setAll (items.map fun kv => (kv.1, g kv.2)) := by
    intro items
    induction items with
    | nil =>
      intro acc hacc
      cases hacc
      rfl
    | cons kv items ih =>
      intro acc hacc
      rw [List.foldlM_cons] at hacc
      cases hg : g kv.2 with
      | none =>
        rw [hg] at hacc
        cases hacc
      | some w =>
        rw [hg] at hacc
        rw [ih _ hacc, List.map_cons, setAll, setAll, List.foldl_cons, ← set_mapVals, hg]
  rw [hloop d.items empty h]
  exact setAll_items (d.mapVals g)

/-- The loop comes to its end where `g` makes something of each value. -/
theorem foldlM_isSome {g : β → Option γ} {items : List (α × β)}
    (h : ∀ kv ∈ items, ∃ w, g kv.2 = some w) (acc : Dict α γ) :
    ∃ e, items.foldlM (fun acc kv => (g kv.2).map fun w => acc.set kv.1 w) acc = some e := by
  induction items generalizing acc with
  | nil => exact ⟨acc, rfl⟩
  | cons kv items ih =>
    obtain ⟨w, hw⟩ := h kv List.mem_cons_self
    rw [List.foldlM_cons, hw]
    exact ih (fun kv' hkv' => h kv' (List.mem_cons_of_mem _ hkv')) _

/-! ## Dictionaries of dictionaries -/

/-- `d.get(k, {}).get(x)` -/
def get₂ {δ : Type*} [DecidableEq δ] (k : α) (x : δ) (d : Dict α (Dict δ β)) : Option β :=
  (d.get k).bind (Dict.get x)

/-- Each dictionary of `e` updates the one that `d` has under its key. -/
def merge {δ : Type*} [DecidableEq δ] (d e : Dict α (Dict δ β)) : Dict α (Dict δ β) :=
  d.setAll (e.items.map fun kv => (kv.1, ((d.get kv.1).getD empty).update kv.2))

@[simp] theorem get₂_merge {δ : Type*} [DecidableEq δ] (d e : Dict α (Dict δ β)) (k : α) (x : δ) :
    (d.merge e).get₂ k x = (e.get₂ k x).or (d.get₂ k x) := by
  have hkeys : ∀ items : List (α × Dict δ β),
      (items.map fun kv => (kv.1, ((d.get kv.1).getD empty).update kv.2)).lookup k =
        (items.lookup k).map fun v => ((d.get k).getD empty).update v := by
    intro items
    induction items with
    | nil => rfl
    | cons kv items ih =>
      rw [List.map_cons, List.lookup_cons, List.lookup_cons]
      cases hk : k == kv.1 with
      | false => exact ih
      | true => rw [← eq_of_beq hk]; rfl
  have hperm : e.items.reverse.lookup k = e.items.lookup k :=
    (lookup_perm e.nodup (List.reverse_perm _).symm k).symm
  rw [get₂, merge, get_setAll, ← List.map_reverse, hkeys, hperm]
  show ((e.get k).map _ |>.or (d.get k)).bind _ = _
  rw [get₂, get₂]
  cases e.get k with
  | none => rfl
  | some v =>
    rw [Option.map_some, Option.some_or, Option.bind_some, Option.bind_some, get_update]
    cases d.get k <;> rfl

end Dict

end FlsunT1.Library
