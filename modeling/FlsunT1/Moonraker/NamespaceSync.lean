/-
  Moonraker/NamespaceSync.lean --- updating and synchronising a namespace
  (`_update_ns_impl` and `_sync_ns_impl` in moonraker/components/database.py).

  Both leave a record alone that is equal to the new value as Python compares them, where a
  boolean is a number and an integer may equal a fraction.  The writes of a call are one
  transaction, which an exception undoes.
-/
import Mathlib
import FlsunT1.Library.Dict
import FlsunT1.Library.Instances
import FlsunT1.Moonraker.NamespaceView

set_option autoImplicit false

namespace FlsunT1.Moonraker

open Library

variable {F : Type}

/-! ## Equality -/

/-- `==` where a floating point number is compared, with another or with an integer. -/
structure FloatEquality (F : Type) where
  eqFloat : F → F → Bool
  eqInt : ℤ → F → Bool

/-- The numbers of Python; booleans are integers. -/
inductive Number (F : Type) where
  | int (n : ℤ)
  | float (x : F)

/-- A value that is a number. -/
def Value.number : Value F → Option (Number F)
  | .bool b => some (.int (if b then 1 else 0))
  | .int n => some (.int n)
  | .float x => some (.float x)
  | _ => none

/-- `x == y` of numbers -/
def Number.equal (floats : FloatEquality F) : Number F → Number F → Bool
  | .int n, .int m => n == m
  | .int n, .float y => floats.eqInt n y
  | .float x, .int m => floats.eqInt m x
  | .float x, .float y => floats.eqFloat x y

mutual

/-- `v == w` -/
def Value.equal (floats : FloatEquality F) (v w : Value F) : Bool :=
  match v with
  | .null => w.isNull
  | .bool b => w.number.any (Number.equal floats (.int (if b then 1 else 0)))
  | .int n => w.number.any (Number.equal floats (.int n))
  | .float x => w.number.any (Number.equal floats (.float x))
  | .str s =>
    match w with
    | .str t => s == t
    | _ => false
  | .list items =>
    match w with
    | .list items' => equalItems floats items items'
    | _ => false
  | .dict items =>
    match w with
    | .dict items' => items.length == items'.length && equalMembers floats items items'
    | _ => false

/-- Two lists are equal item by item. -/
def equalItems (floats : FloatEquality F) (items items' : List (Value F)) : Bool :=
  match items with
  | [] => items'.isEmpty
  | v :: vs =>
    match items' with
    | [] => false
    | w :: ws => v.equal floats w && equalItems floats vs ws

/-- Each member of a dictionary is in the other one, with an equal value. -/
def equalMembers (floats : FloatEquality F) (items items' : List (String × Value F)) : Bool :=
  match items with
  | [] => true
  | (k, v) :: rest =>
    (match items'.lookup k with
      | some w => v.equal floats w
      | none => false) && equalMembers floats rest items'

end

/-- The same JSON value: the members of an object have no order, and a boolean is no number. -/
inductive SameJson : Value F → Value F → Prop where
  | refl (v : Value F) : SameJson v v
  | list {items items' : List (Value F)} (h : List.Forall₂ SameJson items items') :
      SameJson (.list items) (.list items')
  | dict {items members items' : List (String × Value F)}
      (hkeys : items.map Prod.fst = members.map Prod.fst)
      (h : List.Forall₂ SameJson (items.map Prod.snd) (members.map Prod.snd))
      (hperm : members.Perm items') : SameJson (.dict items) (.dict items')

/-! ## The calls -/

/-- The order in which the keys of a set come. -/
structure SetOrder where
  items : Finset String → List String
  nodup : ∀ s, (items s).Nodup
  mem_items : ∀ s key, key ∈ items s ↔ key ∈ s

/-- What both calls raise. -/
inductive SyncError where
  /-- "Cannot sync to an empty value" -/
  | emptyValue
  | database (e : DatabaseError)
  deriving DecidableEq

/-- The records of a namespace. -/
abbrev Records := Table String (List UInt8)

section Calls

variable (codec : RecordCodec F) (env : Lmdb) (floats : FloatEquality F)

/-- `txn.put(key.encode(), self._encode_value(val))` -/
def putValue (records : Records) (key : String) (val : Value F) : Except DatabaseError Records :=
  match encodeValue codec val with
  | none => .error .codec
  | some bytes => if env.takes key bytes then .ok (records.set key bytes) else .error .lmdb

/-- The record of a key that is in the mapping: it is put unless it is equal. -/
def refresh (records : Records) (key : String) (val : Value F) (stored : List UInt8) :
    Except DatabaseError Records :=
  match decodeValue codec stored with
  | none => .error .codec
  | some decoded =>
    if val.equal floats decoded then .ok records else putValue codec env records key val

/-- The loop of `_update_ns_impl`. -/
def updateLoop (records : Records) : List (String × Value F) → Except DatabaseError Records
  | [] => .ok records
  | (key, val) :: items =>
    let written :=
      match records.get key with
      | some stored => refresh codec env floats records key val stored
      | none => putValue codec env records key val
    match written with
    | .error e => .error e
    | .ok records => updateLoop records items

/-- The loop of `_sync_ns_impl` over the cursor, with the items from its position on. -/
def cursorLoop (value : Dict String (Value F)) (newKeys : Finset String) (records : Records) :
    List (String × List UInt8) → Except DatabaseError (Finset String × Records)
  | [] => .ok (newKeys, records)
  | (key, bval) :: rest =>
    match value.get key with
    | none =>
      -- behind the last item the cursor gives an empty key, which cannot be deleted, without a value
      if rest = [] ∧ (value.get "").isSome then .error .codec
      else cursorLoop value newKeys (records.erase key) rest
    | some val =>
      match refresh codec env floats records key val bval with
      | .error e => .error e
      | .ok records => cursorLoop value (newKeys.erase key) records rest

/-- The loop of `_sync_ns_impl` over the keys that are new. -/
def newLoop (value : Dict String (Value F)) (records : Records) :
    List String → Except DatabaseError Records
  | [] => .ok records
  | key :: keys =>
    match value.get key with
    | none => .error .notFound
    | some val =>
      match putValue codec env records key val with
      | .error e => .error e
      | .ok records => newLoop value records keys

/-- The items of a namespace, as a cursor passes them. -/
def cursorItems (records : Records) : List (String × List UInt8) :=
  (records.keys.sort (· ≤ ·)).filterMap fun key => (records.get key).map (key, ·)

/-- Both loops of `_sync_ns_impl`. -/
def syncLoops (order : SetOrder) (value : Dict String (Value F)) (records : Records) :
    Except DatabaseError Records :=
  match cursorLoop codec env floats value (value.items.map Prod.fst).toFinset records
      (cursorItems records) with
  | .error e => .error e
  | .ok (newKeys, records) => newLoop codec env value records (order.items newKeys)

/-- A transaction in a namespace: an exception leaves its records as they were. -/
def transaction (ns : String) (db : Database)
    (body : Records → Except DatabaseError Records) : Except SyncError Unit × Database :=
  match db.get ns with
  | none => (.error (.database .notFound), db)
  | some records =>
    match body records with
    | .error e => (.error (.database e), db)
    | .ok records => (.ok (), db.set ns records)

/-- `_update_ns_impl` -/
def updateNamespace (ns : String) (value : Dict String (Value F)) (db : Database) :
    Except SyncError Unit × Database :=
  if value.items = [] then (.ok (), db)
  else transaction ns db fun records => updateLoop codec env floats records value.items

/-- `_sync_ns_impl` -/
def syncNamespace (order : SetOrder) (ns : String) (value : Dict String (Value F))
    (db : Database) : Except SyncError Unit × Database :=
  if value.items = [] then (.error .emptyValue, db)
  else transaction ns db (syncLoops codec env floats order value)

end Calls

/-! ## One record -/

/-- The records are decoded to the values of `f`. -/
def Reads (codec : RecordCodec F) (records : Records) (f : String → Option (Value F)) : Prop :=
  ∀ key, (records.get key).map (decodeValue codec) = (f key).map some

/-- The value that is there is equal to the new one. -/
def skipped (floats : FloatEquality F) (f : String → Option (Value F)) (key : String)
    (val : Value F) : Bool :=
  (f key).any fun old => val.equal floats old

/-- The value is encoded, and the record is taken. -/
def Puttable (codec : RecordCodec F) (env : Lmdb) (key : String) (val : Value F) : Prop :=
  ∃ bytes, encodeValue codec val = some bytes ∧ env.takes key bytes = true

variable {codec : RecordCodec F} {env : Lmdb} {floats : FloatEquality F} {records : Records}
  {f g : String → Option (Value F)} {key : String} {val : Value F}

/-- What is under a key of the mapping afterwards. -/
def refreshed (floats : FloatEquality F) (f : String → Option (Value F)) (key : String)
    (val : Value F) : Option (Value F) :=
  if skipped floats f key val then f key else some val

/-- A call returns exactly if `P` holds, and then it leaves the values of `g`. -/
structure Outcome (codec : RecordCodec F) (P : Prop) (g : String → Option (Value F))
    (r : Except DatabaseError Records) : Prop where
  returns : P → ∃ records, r = .ok records ∧ Reads codec records g
  raises : ¬P → ∃ e, r = .error e

theorem Reads.decode {stored : List UInt8} (h : Reads codec records f)
    (hstored : records.get key = some stored) : ∃ old, f key = some old ∧
      decodeValue codec stored = some old := by
  have hread := h key
  rw [hstored, Option.map_some] at hread
  obtain ⟨old, hold, heq⟩ := Option.map_eq_some_iff.mp hread.symm
  exact ⟨old, hold, heq.symm⟩

theorem Reads.none_iff (h : Reads codec records f) : records.get key = none ↔ f key = none := by
  have hread := h key
  rw [← Option.map_eq_none_iff, hread, Option.map_eq_none_iff]

theorem Reads.set {bytes : List UInt8} (h : Reads codec records f)
    (hbytes : decodeValue codec bytes = some val) :
    Reads codec (records.set key bytes) (Function.update f key (some val)) := by
  intro key'
  rw [Table.get_set, Function.update_apply]
  split
  · rw [Option.map_some, hbytes, Option.map_some]
  · exact h key'

theorem Reads.erase (h : Reads codec records f) :
    Reads codec (records.erase key) (Function.update f key none) := by
  intro key'
  rw [Table.get_erase, Function.update_apply]
  split
  · rfl
  · exact h key'

variable (env key val) in
theorem putValue_outcome (h : Reads codec records f) :
    Outcome codec (Puttable codec env key val) (Function.update f key (some val))
      (putValue codec env records key val) where
  returns := by
    rintro ⟨bytes, hbytes, htakes⟩
    unfold putValue
    rw [hbytes]
    dsimp only
    rw [if_pos htakes]
    exact ⟨_, rfl, h.set (decodeValue_encodeValue hbytes)⟩
  raises := by
    intro hnot
    unfold putValue
    cases hbytes : encodeValue codec val with
    | none => exact ⟨_, rfl⟩
    | some bytes =>
      dsimp only
      rw [if_neg fun htakes => hnot ⟨bytes, hbytes, htakes⟩]
      exact ⟨_, rfl⟩

variable (env floats val) in
theorem refresh_outcome (h : Reads codec records f) {stored : List UInt8}
    (hstored : records.get key = some stored) :
    Outcome codec (skipped floats f key val = true ∨ Puttable codec env key val)
      (Function.update f key (refreshed floats f key val))
      (refresh codec env floats records key val stored) := by
  obtain ⟨old, hold, hdecode⟩ := h.decode hstored
  have hskipped : skipped floats f key val = val.equal floats old := by
    unfold skipped
    rw [hold, Option.any_some]
  unfold refresh refreshed
  rw [hdecode, hskipped]
  dsimp only
  by_cases hequal : val.equal floats old = true
  · rw [if_pos hequal, if_pos hequal, Function.update_eq_self]
    exact ⟨fun _ => ⟨records, rfl, h⟩, fun hnot => absurd (Or.inl hequal) hnot⟩
  · rw [if_neg hequal, if_neg hequal]
    have hput := putValue_outcome env key val h
    exact ⟨fun hor => hput.returns (hor.resolve_left hequal),
      fun hnor => hput.raises fun hp => hnor (Or.inr hp)⟩

theorem refresh_other {stored : List UInt8} {records' : Records}
    (h : refresh codec env floats records key val stored = .ok records') {key' : String}
    (hne : key' ≠ key) : records'.get key' = records.get key' := by
  unfold refresh at h
  split at h
  · cases h
  · split at h
    · cases h
      rfl
    · unfold putValue at h
      split at h
      · cases h
      · split at h
        · cases h
          rw [Table.get_set, if_neg hne]
        · cases h

variable (env floats key val) in
theorem written_outcome (h : Reads codec records f) :
    Outcome codec (skipped floats f key val = true ∨ Puttable codec env key val)
      (Function.update f key (refreshed floats f key val))
      (match records.get key with
        | some stored => refresh codec env floats records key val stored
        | none => putValue codec env records key val) := by
  cases hstored : records.get key with
  | some stored => exact refresh_outcome env floats val h hstored
  | none =>
    have hskipped : skipped floats f key val = false := by
      unfold skipped
      rw [h.none_iff.mp hstored, Option.any_none]
    have hput := putValue_outcome env key val h
    unfold refreshed
    rw [hskipped]
    exact ⟨fun hor => hput.returns (hor.resolve_left Bool.false_ne_true),
      fun hnor => hput.raises fun hp => hnor (Or.inr hp)⟩

theorem skipped_update {key' : String} (hne : key' ≠ key) (x : Option (Value F)) :
    skipped floats (Function.update f key x) key' val = skipped floats f key' val := by
  unfold skipped
  rw [Function.update_of_ne hne]

theorem refreshed_update {key' : String} (hne : key' ≠ key) (x : Option (Value F)) :
    refreshed floats (Function.update f key x) key' val = refreshed floats f key' val := by
  unfold refreshed
  rw [Function.update_of_ne hne, skipped_update hne]

/-! ## The loops -/

/-- The value that a key of the mapping can get: it is skipped, or its record can be put. -/
def Writable (codec : RecordCodec F) (env : Lmdb) (floats : FloatEquality F)
    (f : String → Option (Value F)) (key : String) (val : Value F) : Prop :=
  skipped floats f key val = true ∨ Puttable codec env key val

theorem writable_update {key' : String} (hne : key' ≠ key) (x : Option (Value F)) :
    Writable codec env floats (Function.update f key x) key' val ↔
      Writable codec env floats f key' val := by
  unfold Writable
  rw [skipped_update hne]

theorem lookup_elim_cons {items : List (String × Value F)} (hkey : key ∉ items.map Prod.fst) :
    (fun key' => (((key, val) :: items).lookup key').elim (f key') (refreshed floats f key')) =
      fun key' => (items.lookup key').elim
        (Function.update f key (refreshed floats f key val) key')
        (refreshed floats (Function.update f key (refreshed floats f key val)) key') := by
  funext key'
  rw [List.lookup_cons]
  by_cases heq : key' = key
  · subst heq
    have hnone : items.lookup key' = none := by
      refine List.lookup_eq_none_iff.mpr fun kv hkv => ?_
      refine bne_iff_ne.mpr fun heq => hkey (List.mem_map.mpr ⟨kv, hkv, heq.symm⟩)
    rw [beq_self_eq_true, hnone, Option.elim_none, Function.update_self]
    rfl
  · rw [beq_false_of_ne heq, Function.update_of_ne heq]
    cases items.lookup key' with
    | none => rfl
    | some v => exact (refreshed_update heq _).symm

variable (env floats) in
theorem updateLoop_outcome {items : List (String × Value F)} (hnodup : (items.map Prod.fst).Nodup)
    (h : Reads codec records f) :
    Outcome codec (∀ kv ∈ items, Writable codec env floats f kv.1 kv.2)
      (fun key => (items.lookup key).elim (f key) (refreshed floats f key))
      (updateLoop codec env floats records items) := by
  induction items generalizing records f with
  | nil => exact ⟨fun _ => ⟨records, rfl, h⟩, fun hnot => absurd (List.forall_mem_nil _) hnot⟩
  | cons kv items ih =>
    obtain ⟨key, val⟩ := kv
    obtain ⟨hkey, hitems⟩ := List.nodup_cons.mp hnodup
    have hwritten := written_outcome env floats key val h
    have hother : ∀ kv ∈ items, kv.1 ≠ key := fun kv hkv heq =>
      hkey (List.mem_map.mpr ⟨kv, hkv, heq⟩)
    unfold updateLoop
    by_cases hwritable : Writable codec env floats f key val
    · obtain ⟨records', hrecords', hreads⟩ := hwritten.returns hwritable
      have hrest := ih hitems hreads
      dsimp only
      rw [hrecords']
      dsimp only
      constructor
      · intro hall
        obtain ⟨t, ht, hg⟩ := hrest.returns fun kv hkv =>
          (writable_update (hother kv hkv) _).mpr (hall kv (List.mem_cons_of_mem _ hkv))
        refine ⟨t, ht, ?_⟩
        rw [lookup_elim_cons hkey]
        exact hg
      · intro hnot
        refine hrest.raises fun hall => hnot (List.forall_mem_cons.mpr ⟨hwritable, fun kv hkv => ?_⟩)
        exact (writable_update (hother kv hkv) _).mp (hall kv hkv)
    · obtain ⟨e, he⟩ := hwritten.raises hwritable
      dsimp only
      rw [he]
      exact ⟨fun hall => absurd (List.forall_mem_cons.mp hall).1 hwritable, fun _ => ⟨e, rfl⟩⟩

section Sync

variable {value : Dict String (Value F)}

theorem visited_cons {keys : List String} (hkey : key ∉ keys) {x : Option (Value F)}
    (hx : x = (value.get key).bind (refreshed floats f key)) :
    (fun key' => if key' ∈ key :: keys then (value.get key').bind (refreshed floats f key')
      else f key') =
      fun key' => if key' ∈ keys then
        (value.get key').bind (refreshed floats (Function.update f key x) key')
      else Function.update f key x key' := by
  funext key'
  by_cases heq : key' = key
  · subst heq
    rw [if_pos List.mem_cons_self, if_neg hkey, Function.update_self, hx]
  · rw [Function.update_of_ne heq, if_congr (List.mem_cons.trans (or_iff_right heq)) rfl rfl]
    cases value.get key' with
    | none => rfl
    | some v =>
      rw [Option.bind_some, Option.bind_some, refreshed_update heq]

variable (env floats) in
/-- The loop over the cursor leaves the keys that it has not found. -/
theorem cursorLoop_outcome (hempty : value.get "" = none) {rest : List (String × List UInt8)}
    (hnodup : (rest.map Prod.fst).Nodup) {newKeys : Finset String}
    (hnew : ∀ key ∈ newKeys, value.get key ≠ none) (h : Reads codec records f)
    (hstored : ∀ kb ∈ rest, records.get kb.1 = some kb.2) :
    ((∀ kb ∈ rest, ∀ val, value.get kb.1 = some val → Writable codec env floats f kb.1 val) →
      ∃ newKeys' records', cursorLoop codec env floats value newKeys records rest =
          .ok (newKeys', records') ∧
        (∀ key, key ∈ newKeys' ↔ key ∈ newKeys ∧ key ∉ rest.map Prod.fst) ∧
        Reads codec records' fun key => if key ∈ rest.map Prod.fst then
          (value.get key).bind (refreshed floats f key) else f key) ∧
    ((∃ kb ∈ rest, ∃ val, value.get kb.1 = some val ∧ ¬Writable codec env floats f kb.1 val) →
      ∃ e, cursorLoop codec env floats value newKeys records rest = .error e) := by
  induction rest generalizing records f newKeys with
  | nil =>
    refine ⟨fun _ => ⟨newKeys, records, rfl, fun key => ?_, h⟩, ?_⟩
    · exact (and_iff_left List.not_mem_nil).symm
    · rintro ⟨kb, hkb, -⟩
      cases hkb
  | cons kb rest ih =>
    obtain ⟨key, bval⟩ := kb
    obtain ⟨hkey, hrest⟩ := List.nodup_cons.mp hnodup
    obtain ⟨hbval, hstored⟩ := List.forall_mem_cons.mp hstored
    have hother : ∀ kb ∈ rest, kb.1 ≠ key := fun kb hkb heq =>
      hkey (List.mem_map.mpr ⟨kb, hkb, heq⟩)
    -- what a step leaves, and the rest of the loop makes of it
    have hstep : ∀ {records' : Records} (newKeys' : Finset String) {x : Option (Value F)},
        x = (value.get key).bind (refreshed floats f key) →
        Reads codec records' (Function.update f key x) →
        (∀ kb ∈ rest, records'.get kb.1 = some kb.2) →
        (∀ key', key' ∈ newKeys' ↔ key' ∈ newKeys ∧ key' ≠ key) →
        ((∀ kb ∈ rest, ∀ val, value.get kb.1 = some val → Writable codec env floats f kb.1 val) →
          ∃ newKeys'' records'', cursorLoop codec env floats value newKeys' records' rest =
              .ok (newKeys'', records'') ∧
            (∀ key', key' ∈ newKeys'' ↔ key' ∈ newKeys ∧ key' ∉ key :: rest.map Prod.fst) ∧
            Reads codec records'' fun key' => if key' ∈ key :: rest.map Prod.fst then
              (value.get key').bind (refreshed floats f key') else f key') ∧
        ((∃ kb ∈ rest, ∃ val, value.get kb.1 = some val ∧
            ¬Writable codec env floats f kb.1 val) →
          ∃ e, cursorLoop codec env floats value newKeys' records' rest = .error e) := by
      intro records' newKeys' x hx hreads hstored' hkeys
      have hnew' : ∀ key' ∈ newKeys', value.get key' ≠ none := fun key' hkey' =>
        hnew key' ((hkeys key').mp hkey').1
      obtain ⟨hok, herror⟩ := ih hrest hnew' hreads hstored'
      constructor
      · intro hall
        obtain ⟨newKeys'', records'', heq, hmem, hg⟩ := hok fun kb hkb val hval =>
          (writable_update (hother kb hkb) _).mpr (hall kb hkb val hval)
        refine ⟨newKeys'', records'', heq, fun key' => ?_, ?_⟩
        · rw [hmem, hkeys, List.mem_cons, not_or, and_assoc]
        · rw [visited_cons hkey hx]
          exact hg
      · rintro ⟨kb, hkb, val, hval, hnot⟩
        exact herror ⟨kb, hkb, val, hval, fun hw => hnot ((writable_update (hother kb hkb) _).mp hw)⟩
    unfold cursorLoop
    cases hval : value.get key with
    | none =>
      have hgone : ∀ key', key' ∈ newKeys ↔ key' ∈ newKeys ∧ key' ≠ key := fun key' =>
        ⟨fun hmem => ⟨hmem, fun heq => hnew key' hmem (heq ▸ hval)⟩, And.left⟩
      obtain ⟨hok, herror⟩ := hstep newKeys (x := none) (by rw [hval]; rfl) h.erase (fun kb hkb => by
        rw [Table.get_erase, if_neg (hother kb hkb)]
        exact hstored kb hkb) hgone
      dsimp only
      rw [if_neg fun hend => by rw [hempty] at hend; cases hend.2]
      refine ⟨fun hall => hok fun kb hkb => hall kb (List.mem_cons_of_mem _ hkb), ?_⟩
      rintro ⟨kb, hkb, val, hv, hnot⟩
      rcases List.mem_cons.mp hkb with rfl | hkb
      · rw [hval] at hv
        cases hv
      · exact herror ⟨kb, hkb, val, hv, hnot⟩
    | some val =>
      have hrefresh := refresh_outcome env floats val h hbval
      dsimp only
      by_cases hwritable : Writable codec env floats f key val
      · obtain ⟨records', hrecords', hreads⟩ := hrefresh.returns hwritable
        obtain ⟨hok, herror⟩ := hstep (newKeys.erase key) (by rw [hval]; rfl) hreads
          (fun kb hkb => (refresh_other hrecords' (hother kb hkb)).trans (hstored kb hkb))
          fun key' => Finset.mem_erase.trans and_comm
        rw [hrecords']
        refine ⟨fun hall => hok fun kb hkb => hall kb (List.mem_cons_of_mem _ hkb), ?_⟩
        rintro ⟨kb, hkb, val', hv, hnot⟩
        rcases List.mem_cons.mp hkb with rfl | hkb
        · rw [hval] at hv
          obtain rfl := Option.some.inj hv
          exact absurd hwritable hnot
        · exact herror ⟨kb, hkb, val', hv, hnot⟩
      · obtain ⟨e, he⟩ := hrefresh.raises hwritable
        rw [he]
        refine ⟨fun hall => absurd (hall _ List.mem_cons_self val hval) hwritable, fun _ => ⟨e, rfl⟩⟩

variable (env) in
/-- The loop over the new keys puts them. -/
theorem newLoop_outcome {keys : List String} (hnodup : keys.Nodup)
    (hvalue : ∀ key ∈ keys, value.get key ≠ none) (h : Reads codec records f) :
    Outcome codec (∀ key ∈ keys, ∀ val, value.get key = some val → Puttable codec env key val)
      (fun key => if key ∈ keys then value.get key else f key)
      (newLoop codec env value records keys) := by
  induction keys generalizing records f with
  | nil => exact ⟨fun _ => ⟨records, rfl, h⟩, fun hnot => absurd (List.forall_mem_nil _) hnot⟩
  | cons key keys ih =>
    obtain ⟨hkey, hkeys⟩ := List.nodup_cons.mp hnodup
    obtain ⟨hthere, hvalue⟩ := List.forall_mem_cons.mp hvalue
    obtain ⟨val, hval⟩ := Option.ne_none_iff_exists'.mp hthere
    have hput := putValue_outcome env key val h
    unfold newLoop
    rw [hval]
    dsimp only
    by_cases hputtable : Puttable codec env key val
    · obtain ⟨records', hrecords', hreads⟩ := hput.returns hputtable
      have hrest := ih hkeys hvalue hreads
      rw [hrecords']
      dsimp only
      constructor
      · intro hall
        obtain ⟨t, ht, hg⟩ := hrest.returns (List.forall_mem_cons.mp hall).2
        refine ⟨t, ht, ?_⟩
        convert hg using 2 with key'
        by_cases heq : key' = key
        · subst heq
          rw [if_pos List.mem_cons_self, if_neg hkey, Function.update_self, hval]
        · rw [Function.update_of_ne heq, if_congr (List.mem_cons.trans (or_iff_right heq)) rfl rfl]
      · intro hnot
        refine hrest.raises fun hall => hnot (List.forall_mem_cons.mpr ⟨?_, hall⟩)
        intro val' hv
        rw [hval] at hv
        rw [← Option.some.inj hv]
        exact hputtable
    · obtain ⟨e, he⟩ := hput.raises hputtable
      rw [he]
      exact ⟨fun hall => absurd (hall _ List.mem_cons_self val hval) hputtable, fun _ => ⟨e, rfl⟩⟩

theorem map_fst_cursorItems (records : Records) :
    (cursorItems records).map Prod.fst = records.keys.sort (· ≤ ·) := by
  have hget : ∀ key ∈ records.keys.sort (· ≤ ·), ∃ bytes, records.get key = some bytes := by
    intro key hkey
    rw [Finset.mem_sort, Finmap.mem_keys] at hkey
    exact Finmap.mem_iff.mp hkey
  unfold cursorItems
  generalize records.keys.sort (· ≤ ·) = keys at *
  induction keys with
  | nil => rfl
  | cons key keys ih =>
    obtain ⟨⟨bytes, hbytes⟩, hkeys⟩ := List.forall_mem_cons.mp hget
    rw [List.filterMap_cons_some (by rw [hbytes]; rfl), List.map_cons, ih hkeys]

theorem get_of_mem_cursorItems {kb : String × List UInt8} (h : kb ∈ cursorItems records) :
    records.get kb.1 = some kb.2 := by
  obtain ⟨key, -, hkb⟩ := List.mem_filterMap.mp h
  obtain ⟨bytes, hbytes, rfl⟩ := Option.map_eq_some_iff.mp hkb
  exact hbytes

theorem mem_cursorKeys (h : Reads codec records f) :
    key ∈ (cursorItems records).map Prod.fst ↔ f key ≠ none := by
  rw [map_fst_cursorItems, Finset.mem_sort, Finmap.mem_keys, Finmap.mem_iff, ← not_iff_not,
    not_not, ← h.none_iff]
  change (¬∃ v, records.get key = some v) ↔ _
  rw [← Option.isSome_iff_exists, Option.not_isSome_iff_eq_none]

theorem get_ne_none_iff {value : Dict String (Value F)} :
    value.get key ≠ none ↔ key ∈ value.items.map Prod.fst := by
  constructor
  · intro hget
    obtain ⟨v, hv⟩ := Option.ne_none_iff_exists'.mp hget
    exact List.mem_map.mpr ⟨_, Dict.get_eq_some_iff.mp hv, rfl⟩
  · intro hmem
    obtain ⟨kv, hkv, rfl⟩ := List.mem_map.mp hmem
    rw [Dict.get_eq_some_iff.mpr hkv]
    exact Option.some_ne_none _

theorem skipped_of_none (hnone : f key = none) : skipped floats f key val = false := by
  unfold skipped
  rw [hnone, Option.any_none]

variable (env floats) in
theorem syncLoops_outcome (order : SetOrder) (hempty : value.get "" = none)
    (h : Reads codec records f) :
    Outcome codec (∀ kv ∈ value.items, Writable codec env floats f kv.1 kv.2)
      (fun key => (value.get key).bind (refreshed floats f key))
      (syncLoops codec env floats order value records) := by
  have hnodup : ((cursorItems records).map Prod.fst).Nodup := by
    rw [map_fst_cursorItems]
    exact Finset.sort_nodup _ _
  have hgiven : ∀ key ∈ (value.items.map Prod.fst).toFinset, value.get key ≠ none :=
    fun key hkey => get_ne_none_iff.mpr (List.mem_toFinset.mp hkey)
  obtain ⟨hok, herror⟩ := cursorLoop_outcome env floats hempty hnodup hgiven h
    (fun kb hkb => get_of_mem_cursorItems hkb)
  unfold syncLoops
  by_cases hcursor : ∀ kb ∈ cursorItems records, ∀ val, value.get kb.1 = some val →
      Writable codec env floats f kb.1 val
  · obtain ⟨newKeys, records', heq, hnew, hreads⟩ := hok hcursor
    have hnewKeys : ∀ key, key ∈ order.items newKeys ↔ value.get key ≠ none ∧ f key = none := by
      intro key
      rw [order.mem_items, hnew, List.mem_toFinset, get_ne_none_iff, mem_cursorKeys h, not_not]
    have hloop := newLoop_outcome env (order.nodup newKeys)
      (fun key hkey => ((hnewKeys key).mp hkey).1) hreads
    rw [heq]
    dsimp only
    constructor
    · intro hall
      obtain ⟨t, ht, hg⟩ := hloop.returns fun key hkey val hval =>
        (hall _ (Dict.get_eq_some_iff.mp hval)).resolve_left fun hskip => by
          rw [skipped_of_none ((hnewKeys key).mp hkey).2] at hskip
          cases hskip
      refine ⟨t, ht, ?_⟩
      convert hg using 2 with key
      by_cases hnone : f key = none
      · rw [if_neg fun hmem => (mem_cursorKeys h).mp hmem hnone]
        cases hval : value.get key with
        | none => rw [if_neg fun hmem => ((hnewKeys key).mp hmem).1 hval, hnone, Option.bind_none]
        | some val =>
          rw [if_pos ((hnewKeys key).mpr ⟨by rw [hval]; exact Option.some_ne_none _, hnone⟩)]
          unfold refreshed
          rw [Option.bind_some, skipped_of_none hnone]
          rfl
      · rw [if_neg fun hmem => hnone ((hnewKeys key).mp hmem).2,
          if_pos ((mem_cursorKeys h).mpr hnone)]
    · intro hnot
      refine hloop.raises fun hall => hnot fun kv hkv => ?_
      have hval := Dict.get_eq_some_iff.mpr hkv
      by_cases hnone : f kv.1 = none
      · exact Or.inr (hall kv.1 ((hnewKeys kv.1).mpr
          ⟨by rw [hval]; exact Option.some_ne_none _, hnone⟩) kv.2 hval)
      · obtain ⟨kb, hkb, hkey⟩ := List.mem_map.mp ((mem_cursorKeys h).mpr hnone)
        rw [← hkey] at hval ⊢
        exact hcursor kb hkb kv.2 hval
  · obtain ⟨kb, hkb, hnot⟩ : ∃ kb ∈ cursorItems records, ∃ val, value.get kb.1 = some val ∧
        ¬Writable codec env floats f kb.1 val := by
      by_contra hnone
      refine hcursor fun kb hkb val hval => ?_
      by_contra hw
      exact hnone ⟨kb, hkb, val, hval, hw⟩
    obtain ⟨e, he⟩ := herror ⟨kb, hkb, hnot⟩
    rw [he]
    obtain ⟨val, hval, hw⟩ := hnot
    exact ⟨fun hall => absurd (hall _ (Dict.get_eq_some_iff.mp hval)) hw, fun _ => ⟨e, rfl⟩⟩

end Sync

/-! ## The calls -/

theorem Holds.reads_records {ns : String} {db : Database} (h : Holds codec ns db f) :
    ∃ records, db.get ns = some records ∧ Reads codec records f := by
  obtain ⟨records, hrecords⟩ := h.opened
  refine ⟨records, hrecords, fun key => ?_⟩
  rw [← h.reads key, Table.get₂, hrecords, Option.bind_some]

/-- A transaction leaves what its body leaves, or all as it was. -/
theorem transaction_spec {ns : String} {db : Database} {P : Prop}
    {body : Records → Except DatabaseError Records} (h : Holds codec ns db f)
    (hbody : ∀ records, Reads codec records f → Outcome codec P g (body records)) :
    (P → ∃ db', transaction ns db body = (.ok (), db') ∧ Holds codec ns db' g) ∧
      (¬P → ∃ e, transaction ns db body = (.error e, db)) := by
  obtain ⟨records, hrecords, hreads⟩ := h.reads_records
  have houtcome := hbody records hreads
  unfold transaction
  rw [hrecords]
  dsimp only
  constructor
  · intro hp
    obtain ⟨records', heq, hg⟩ := houtcome.returns hp
    rw [heq]
    refine ⟨_, rfl, ⟨records', by rw [Table.get_set, if_pos rfl]⟩, fun key => ?_⟩
    rw [Table.get₂, Table.get_set, if_pos rfl, Option.bind_some]
    exact hg key
  · intro hnot
    obtain ⟨e, he⟩ := houtcome.raises hnot
    rw [he]
    exact ⟨_, rfl⟩

/-- The namespace has the values of the mapping, as JSON, and otherwise those of `rest`. -/
def Overridden (value : Dict String (Value F)) (rest g : String → Option (Value F)) : Prop :=
  ∀ key, (∀ val, value.get key = some val → ∃ w, g key = some w ∧ SameJson val w) ∧
    (value.get key = none → g key = rest key)

/-- What a call with a mapping owes: values that can be put are stored, and one that cannot be
encoded makes it fail and change nothing. -/
structure Meets (codec : RecordCodec F) (env : Lmdb) (ns : String) (value : Dict String (Value F))
    (rest : String → Option (Value F)) (db : Database) (r : Except SyncError Unit × Database) :
    Prop where
  stored : (∀ kv ∈ value.items, Puttable codec env kv.1 kv.2) →
    r.1 = .ok () ∧ ∃ g, Holds codec ns r.2 g ∧ Overridden value rest g
  refused : (∃ kv ∈ value.items, encodeValue codec kv.2 = none) → r.1 ≠ .ok () ∧ r.2 = db

/-- When both calls do so: a stored value that is equal to the new one is the same JSON value, and
where some value cannot be encoded, some value that cannot be put is not equal to the stored one. -/
structure TypedEqually (codec : RecordCodec F) (env : Lmdb) (floats : FloatEquality F)
    (value : Dict String (Value F)) (f : String → Option (Value F)) : Prop where
  same : (∀ kv ∈ value.items, Puttable codec env kv.1 kv.2) → ∀ key val old,
    value.get key = some val → f key = some old → val.equal floats old = true → SameJson val old
  tried : (∃ kv ∈ value.items, encodeValue codec kv.2 = none) →
    ∃ kv ∈ value.items, ¬Writable codec env floats f kv.1 kv.2

theorem overridden_iff {value : Dict String (Value F)} {rest : String → Option (Value F)}
    (hg : ∀ key, (∀ val, value.get key = some val → g key = refreshed floats f key val) ∧
      (value.get key = none → g key = rest key)) :
    Overridden value rest g ↔ ∀ key val old, value.get key = some val → f key = some old →
      val.equal floats old = true → SameJson val old := by
  constructor
  · intro hover key val old hval hold hequal
    obtain ⟨w, hw, hsame⟩ := (hover key).1 val hval
    rw [(hg key).1 val hval, refreshed, skipped, hold, Option.any_some, if_pos hequal] at hw
    obtain rfl := Option.some.inj hw
    exact hsame
  · intro hsame key
    refine ⟨fun val hval => ?_, (hg key).2⟩
    rw [(hg key).1 val hval, refreshed]
    split
    · rename_i hskip
      obtain ⟨old, hold, hequal⟩ := (Option.any_eq_true _ _).mp hskip
      exact ⟨old, hold, hsame key val old hval hold hequal⟩
    · exact ⟨val, rfl, .refl val⟩

theorem Holds.unique {ns : String} {db : Database} (hf : Holds codec ns db f)
    (hg : Holds codec ns db g) : f = g := by
  funext key
  have hmap := (hf.reads key).symm.trans (hg.reads key)
  exact Option.map_injective (Option.some_injective _) hmap

/-- A call that is a transaction whose outcome is known does what it owes exactly if equal values
are the same. -/
theorem meets_iff {ns : String} {db : Database} {value : Dict String (Value F)}
    {rest : String → Option (Value F)} {r : Except SyncError Unit × Database}
    (hg : ∀ key, (∀ val, value.get key = some val → g key = refreshed floats f key val) ∧
      (value.get key = none → g key = rest key))
    (hreturns : (∀ kv ∈ value.items, Writable codec env floats f kv.1 kv.2) →
      ∃ db', r = (.ok (), db') ∧ Holds codec ns db' g)
    (hraises : (¬∀ kv ∈ value.items, Writable codec env floats f kv.1 kv.2) →
      ∃ e, r = (.error e, db)) :
    Meets codec env ns value rest db r ↔ TypedEqually codec env floats value f := by
  have hputtable : (∀ kv ∈ value.items, Puttable codec env kv.1 kv.2) →
      ∀ kv ∈ value.items, Writable codec env floats f kv.1 kv.2 := fun hall kv hkv =>
    Or.inr (hall kv hkv)
  constructor
  · intro hmeets
    constructor
    · intro hall
      obtain ⟨db', hr, hholds⟩ := hreturns (hputtable hall)
      obtain ⟨-, g', hg', hover⟩ := hmeets.stored hall
      rw [hr] at hg'
      rw [← hholds.unique hg'] at hover
      exact (overridden_iff hg).mp hover
    · intro hnone
      by_contra hall
      have hwritable : ∀ kv ∈ value.items, Writable codec env floats f kv.1 kv.2 := by
        intro kv hkv
        by_contra hnot
        exact hall ⟨kv, hkv, hnot⟩
      obtain ⟨db', hr, -⟩ := hreturns hwritable
      exact (hmeets.refused hnone).1 (by rw [hr])
  · rintro ⟨hsame, htried⟩
    constructor
    · intro hall
      obtain ⟨db', hr, hholds⟩ := hreturns (hputtable hall)
      rw [hr]
      exact ⟨rfl, g, hholds, (overridden_iff hg).mpr (hsame hall)⟩
    · intro hnone
      obtain ⟨kv, hkv, hnot⟩ := htried hnone
      obtain ⟨e, hr⟩ := hraises fun hall => hnot (hall kv hkv)
      rw [hr]
      exact ⟨fun h => (by cases h), rfl⟩

section Namespace

variable {ns : String} {db : Database} {value : Dict String (Value F)}

theorem update_meets_iff (h : Holds codec ns db f) (hne : value.items ≠ []) :
    Meets codec env ns value f db (updateNamespace codec env floats ns value db) ↔
      TypedEqually codec env floats value f := by
  unfold updateNamespace
  rw [if_neg hne]
  obtain ⟨hreturns, hraises⟩ := transaction_spec h fun records hreads =>
    updateLoop_outcome env floats value.nodup hreads
  refine meets_iff (fun key => ⟨fun val hval => ?_, fun hnone => ?_⟩) hreturns hraises
  · change (value.get key).elim _ _ = _
    rw [hval, Option.elim_some]
  · change (value.get key).elim _ _ = _
    rw [hnone, Option.elim_none]

theorem sync_meets_iff (order : SetOrder) (h : Holds codec ns db f) (hne : value.items ≠ [])
    (hempty : value.get "" = none) :
    Meets codec env ns value (fun _ => none) db
        (syncNamespace codec env floats order ns value db) ↔
      TypedEqually codec env floats value f := by
  unfold syncNamespace
  rw [if_neg hne]
  obtain ⟨hreturns, hraises⟩ := transaction_spec h fun records hreads =>
    syncLoops_outcome env floats order hempty hreads
  refine meets_iff (fun key => ⟨fun val hval => ?_, fun hnone => ?_⟩) hreturns hraises
  · rw [hval, Option.bind_some]
  · rw [hnone, Option.bind_none]

/-- Both calls store the mapping as JSON values exactly if a stored value that Python takes for
equal is the same. -/
theorem namespace_meets_iff (order : SetOrder) (h : Holds codec ns db f)
    (hne : value.items ≠ []) (hempty : value.get "" = none) :
    Meets codec env ns value f db (updateNamespace codec env floats ns value db) ∧
        Meets codec env ns value (fun _ => none) db
          (syncNamespace codec env floats order ns value db) ↔
      TypedEqually codec env floats value f := by
  rw [update_meets_iff h hne, sync_meets_iff order h hne hempty, and_self]

end Namespace

/-! ## True and one -/

/-- All records are taken. -/
def takingAll : Lmdb := ⟨fun _ => true, fun _ _ => true⟩

/-- There is one floating point number, and it is one. -/
def oneFloat : FloatEquality Unit := ⟨fun _ _ => true, fun n _ => n == 1⟩

/-- The keys of a set in alphabetical order. -/
def alphabetical : SetOrder where
  items keys := keys.sort (· ≤ ·)
  nodup keys := Finset.sort_nodup keys _
  mem_items _ _ := Finset.mem_sort _

/-- The namespace "ui" with the value `1` under "grid". -/
def gridOne : Database :=
  Database.put "ui" "grid" [113, 1, 0, 0, 0, 0, 0, 0, 0] (Table.empty.set "ui" .empty)

/-- What it holds. -/
def gridValues : String → Option (Value Unit) :=
  Function.update (fun _ => none) "grid" (some (.int 1))

theorem holds_gridOne : Holds scalarCodec "ui" gridOne gridValues := by
  have hbytes : encodeValue scalarCodec (.int 1) = some [113, 1, 0, 0, 0, 0, 0, 0, 0] := by
    decide +kernel
  refine holds_put ⟨⟨.empty, (Table.get_set _ _ _ _).trans (if_pos rfl)⟩, fun key => ?_⟩
    (decodeValue_encodeValue hbytes)
  rw [Table.get₂, Table.get_set, if_pos rfl, Option.bind_some, Table.get_empty]
  rfl

/-- A mapping with one key. -/
def gridMapping (v : Value Unit) : Dict String (Value Unit) :=
  ⟨[("grid", v)], List.nodup_singleton _⟩

/-- Two is no one. -/
theorem namespace_meets_iff_two :
    Meets scalarCodec takingAll "ui" (gridMapping (.int 2)) gridValues gridOne
        (updateNamespace scalarCodec takingAll oneFloat "ui" (gridMapping (.int 2)) gridOne) ∧
      Meets scalarCodec takingAll "ui" (gridMapping (.int 2)) (fun _ => none) gridOne
        (syncNamespace scalarCodec takingAll oneFloat alphabetical "ui" (gridMapping (.int 2))
          gridOne) ↔
      TypedEqually scalarCodec takingAll oneFloat (gridMapping (.int 2)) gridValues :=
  namespace_meets_iff alphabetical holds_gridOne (List.cons_ne_nil _ _) rfl

/-- Neither call stores `true` where there is a `1`. -/
theorem true_not_stored :
    (∀ kv ∈ (gridMapping (.bool true)).items, Puttable scalarCodec takingAll kv.1 kv.2) ∧
      ¬Meets scalarCodec takingAll "ui" (gridMapping (.bool true)) gridValues gridOne
        (updateNamespace scalarCodec takingAll oneFloat "ui" (gridMapping (.bool true)) gridOne) ∧
      ¬Meets scalarCodec takingAll "ui" (gridMapping (.bool true)) (fun _ => none) gridOne
        (syncNamespace scalarCodec takingAll oneFloat alphabetical "ui" (gridMapping (.bool true))
          gridOne) := by
  have hput : ∀ kv ∈ (gridMapping (.bool true)).items,
      Puttable scalarCodec takingAll kv.1 kv.2 :=
    List.forall_mem_singleton.mpr ⟨_, rfl, rfl⟩
  have hnot : ¬TypedEqually scalarCodec takingAll oneFloat (gridMapping (.bool true)) gridValues := by
    intro htyped
    have hsame := htyped.same hput "grid" (.bool true) (.int 1) rfl (Function.update_self _ _ _)
      (by decide +kernel)
    cases hsame
  rw [update_meets_iff holds_gridOne (List.cons_ne_nil _ _),
    sync_meets_iff alphabetical holds_gridOne (List.cons_ne_nil _ _) rfl]
  exact ⟨hput, hnot, hnot⟩

end FlsunT1.Moonraker
