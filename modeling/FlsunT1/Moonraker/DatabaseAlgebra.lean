/-
  Moonraker/DatabaseAlgebra.lean --- what an operation does to the paths of the database.

  A path is at the key of the operation, on the way to it or below it, or apart from it.  The
  operations differ in the record that they store; that storing a record changes no path apart
  from the key is proved once for all of them.
-/
import FlsunT1.Moonraker.Database

set_option autoImplicit false

namespace FlsunT1.Moonraker

open Library

variable {F : Type} {codec : RecordCodec F} {env : Lmdb}

/-! ## Records -/

/-- A record that was encoded is decoded. -/
theorem decodeValue_encodeValue {v : Value F} {bytes : List UInt8}
    (h : encodeValue codec v = some bytes) : decodeValue codec bytes = some v := by
  have hjson {v : Value F} {c : UInt8} (hdumps : codec.dumps v = some bytes)
      (hhead : bytes.head? = some c) (hc : c = 91 ∨ c = 123) :
      decodeValue codec bytes = some v := by
    have hloads := codec.loads_dumps v bytes hdumps
    cases bytes with
    | nil => cases hhead
    | cons b bytes =>
      obtain rfl := Option.some.inj hhead
      obtain rfl | rfl := hc
      · exact hloads
      · exact hloads
  cases v with
  | null => cases h
  | bool b =>
    obtain rfl := Option.some.inj h
    cases b <;> rfl
  | int n =>
    rw [encodeValue] at h
    split at h
    · rename_i hn
      obtain rfl := Option.some.inj h
      exact congrArg (fun n => some (Value.int n)) (unpackSigned_packSigned hn.1 hn.2)
    · cases h
  | float x =>
    obtain rfl := Option.some.inj h
    exact congrArg (fun x => some (Value.float x)) (codec.unpack_pack x)
  | str s =>
    obtain rfl := Option.some.inj h
    show (decodeUtf8 (encodeUtf8 s.toList)).map Value.str = _
    rw [decodeUtf8_encodeUtf8, String.ofList_toList]
    rfl
  | list items => exact hjson h (codec.dumps_list items bytes h) (Or.inl rfl)
  | dict items => exact hjson h (codec.dumps_dict items bytes h) (Or.inr rfl)

theorem decodeValue_ne_null (bytes : List UInt8) : decodeValue codec bytes ≠ some .null := by
  cases bytes with
  | nil => exact fun h => nomatch h
  | cons fmt bytes =>
    rw [decodeValue]
    split
    · exact fun h => nomatch h
    split
    · exact fun h => nomatch h
    split
    · exact fun h => nomatch h
    split
    · intro h
      obtain ⟨s, -, hs⟩ := Option.map_eq_some_iff.mp h
      cases hs
    split
    · rename_i hfmt
      exact codec.loads_ne_null _ (hfmt.imp (congrArg some) (congrArg some))
    · exact fun h => nomatch h

theorem alterPath_dict {default : Option (Value F)}
    {g : Option (Value F) → Option (Option (Value F))} {ks : List String} {v v' : Value F}
    (h : (valueView F).alterPath default g ks v = some v') : ∃ items, v' = .dict items := by
  cases ks with
  | nil => cases h
  | cons k ks =>
    obtain ⟨items, -, ⟨-, w, -, rfl⟩ | ⟨-, child, child', -, -, rfl⟩⟩ :=
      ObjectView.alterPath_cases h
    · exact ⟨_, rfl⟩
    · exact ⟨_, rfl⟩

namespace Database

/-! ## What is stored -/

theorem get₂_put (ns key ns' key' : String) (bytes : List UInt8) (db : Database) :
    (db.put ns key bytes).get₂ ns' key' =
      if ns' = ns ∧ key' = key then some bytes else db.get₂ ns' key' := by
  rw [put, Table.get₂, Table.get_set]
  by_cases hns : ns' = ns
  · subst hns
    rw [if_pos rfl, Option.bind_some, Table.get_set, Table.get₂]
    by_cases hkey : key' = key
    · rw [if_pos hkey, if_pos ⟨rfl, hkey⟩]
    · rw [if_neg hkey, if_neg fun h => hkey h.2]
      cases db.get ns' <;> rfl
  · rw [if_neg hns, if_neg fun h => hns h.1, Table.get₂]

theorem get₂_removeRecord (ns key ns' key' : String) (dropEmptyDb : Bool) (db : Database) :
    (db.removeRecord ns key dropEmptyDb).get₂ ns' key' =
      if ns' = ns ∧ key' = key then none else db.get₂ ns' key' := by
  have hkept : (((db.get ns).getD .empty).erase key).get key' =
      if key' = key then none else db.get₂ ns key' := by
    rw [Table.get_erase, Table.get₂]
    cases db.get ns <;> rfl
  rw [removeRecord]
  split
  · rename_i hempty
    rw [Table.get₂, Table.get_erase]
    by_cases hns : ns' = ns
    · subst hns
      rw [if_pos rfl, Option.bind_none]
      have hnone : (((db.get ns').getD .empty).erase key).get key' = none := by
        rw [hempty.1, Table.get_empty]
      rw [hnone] at hkept
      by_cases hkey : key' = key
      · rw [if_pos ⟨rfl, hkey⟩]
      · rw [if_neg fun h => hkey h.2, hkept, if_neg hkey]
    · rw [if_neg hns, if_neg fun h => hns h.1, Table.get₂]
  · rw [Table.get₂, Table.get_set]
    by_cases hns : ns' = ns
    · subst hns
      rw [if_pos rfl, Option.bind_some, hkept]
      by_cases hkey : key' = key
      · rw [if_pos hkey, if_pos ⟨rfl, hkey⟩]
      · rw [if_neg hkey, if_neg fun h => hkey h.2]
    · rw [if_neg hns, if_neg fun h => hns h.1, Table.get₂]

theorem get₂_openNamespace {ns : String} {db db' : Database}
    (h : db.openNamespace env ns = some db') (ns' key' : String) :
    db'.get₂ ns' key' = db.get₂ ns' key' := by
  rw [openNamespace] at h
  split at h
  · rw [Option.some.inj h]
  · rename_i hnone
    split at h
    · rw [← Option.some.inj h, Table.get₂, Table.get_set, Table.get₂]
      by_cases hns : ns' = ns
      · rw [if_pos hns, hns, hnone]
        rfl
      · rw [if_neg hns]
    · cases h

theorem readPath_congr {db db' : Database} {ns : String} {key : String}
    (h : db'.get₂ ns key = db.get₂ ns key) (rest : List String) :
    db'.readPath codec ns (key :: rest) = db.readPath codec ns (key :: rest) := by
  rw [readPath, readPath, getRecord, getRecord, h]

theorem getRecord_eq_ok {ns key : String} {v : Value F} {db : Database} :
    db.getRecord codec ns key = .ok v ↔ (db.get₂ ns key).bind (decodeValue codec) = some v := by
  rw [getRecord]
  cases db.get₂ ns key with
  | none => exact ⟨(fun h => nomatch h), (fun h => nomatch h)⟩
  | some bytes =>
    simp only [Option.bind_some]
    cases decodeValue codec bytes with
    | none => exact ⟨(fun h => nomatch h), (fun h => nomatch h)⟩
    | some w => exact ⟨fun h => congrArg some (Except.ok.inj h),
        fun h => congrArg Except.ok (Option.some.inj h)⟩

theorem readPath_of_record {ns key : String} {v : Value F} {db : Database}
    (h : db.getRecord codec ns key = .ok v) (rest : List String) :
    db.readPath codec ns (key :: rest) = (valueView F).getPath rest v := by
  rw [readPath, h]
  rfl

theorem readPath_of_error {ns key : String} {e : DatabaseError} {db : Database}
    (h : db.getRecord codec ns key = .error e) (rest : List String) :
    db.readPath codec ns (key :: rest) = none := by
  rw [readPath, h]
  rfl

theorem readPath_ne_null (ns key : String) (db : Database) :
    db.readPath codec ns [key] ≠ some .null := by
  intro h
  cases hrecord : db.getRecord codec ns key with
  | error e =>
    rw [readPath_of_error hrecord] at h
    cases h
  | ok v =>
    rw [readPath_of_record hrecord] at h
    obtain ⟨bytes, -, hbytes⟩ := Option.bind_eq_some_iff.mp (getRecord_eq_ok.mp hrecord)
    rw [Option.some.inj h] at hbytes
    exact decodeValue_ne_null bytes hbytes

/-! ## Effects -/

/-- The path `keys` of the namespace leads to `result`, and what is apart from it has not
changed. -/
structure PathEffect (codec : RecordCodec F) (ns : String) (keys : List String)
    (result : Option (Value F)) (db db' : Database) : Prop where
  at_key : db'.readPath codec ns keys = result
  elsewhere : ∀ ns' p, ns' ≠ ns ∨ Apart p keys →
    db'.readPath codec ns' p = db.readPath codec ns' p

theorem pathEffect_of_record {ns key : String} {rest : List String} {result : Option (Value F)}
    {db db' : Database}
    (hother : ∀ ns' key', ¬(ns' = ns ∧ key' = key) → db'.get₂ ns' key' = db.get₂ ns' key')
    (hat : db'.readPath codec ns (key :: rest) = result)
    (hkept : ∀ p, Apart p rest →
      db'.readPath codec ns (key :: p) = db.readPath codec ns (key :: p)) :
    PathEffect codec ns (key :: rest) result db db' := by
  refine ⟨hat, fun ns' p hp => ?_⟩
  cases p with
  | nil => rfl
  | cons key' p =>
    by_cases hrecord : ns' = ns ∧ key' = key
    · obtain ⟨rfl, rfl⟩ := hrecord
      obtain hns | hapart := hp
      · exact absurd rfl hns
      · exact hkept p (apart_cons.mp hapart)
    · exact readPath_congr (hother ns' key' hrecord) p

theorem pathEffect_put {ns key : String} {rest : List String} {record : Value F}
    {bytes : List UInt8} (db : Database) {db' : Database}
    (hbytes : encodeValue codec record = some bytes)
    (hdb : ∀ ns' key', db'.get₂ ns' key' = db.get₂ ns' key')
    (hkept : ∀ p, Apart p rest →
      (valueView F).getPath p record = db.readPath codec ns (key :: p)) :
    PathEffect codec ns (key :: rest) ((valueView F).getPath rest record) db
      (db'.put ns key bytes) := by
  have hrecord : (db'.put ns key bytes).getRecord codec ns key = .ok record := by
    rw [getRecord_eq_ok, get₂_put, if_pos ⟨rfl, rfl⟩, Option.bind_some,
      decodeValue_encodeValue hbytes]
  refine pathEffect_of_record (fun ns' key' hne => ?_) (readPath_of_record hrecord rest)
    fun p hp => (readPath_of_record hrecord p).trans (hkept p hp)
  rw [get₂_put, if_neg hne, hdb]

theorem pathEffect_remove {ns key : String} {rest : List String} {dropEmptyDb : Bool}
    {db : Database} (hkept : ∀ p, Apart p rest → db.readPath codec ns (key :: p) = none) :
    PathEffect codec ns (key :: rest) none db (db.removeRecord ns key dropEmptyDb) := by
  have hnone (p : List String) :
      (db.removeRecord ns key dropEmptyDb).readPath codec ns (key :: p) = none := by
    rw [readPath, getRecord, get₂_removeRecord, if_pos ⟨rfl, rfl⟩]
    rfl
  refine pathEffect_of_record (fun ns' key' hne => ?_) (hnone rest)
    fun p hp => (hnone p).trans (hkept p hp).symm
  rw [get₂_removeRecord, if_neg hne]

/-! ## The records that the operations store -/

/-- The value at the end of a path of dictionaries that hold nothing else. -/
def nestedValue (value : Value F) : List String → Value F
  | [] => value
  | k :: ks => .dict [(k, nestedValue value ks)]

theorem alterPath_empty (value : Value F) (k : String) (ks : List String) :
    (valueView F).alterPath (some (.dict [])) (fun _ => some (some value)) (k :: ks) (.dict []) =
      some (nestedValue value (k :: ks)) := by
  induction ks generalizing k with
  | nil => rfl
  | cons k' ks ih =>
    rw [ObjectView.alterPath]
    show (((valueView F).alterPath _ _ (k' :: ks) (.dict [])).bind _) = _
    rw [ih]
    rfl

/-- The record of an insert has the value at its path, and keeps the other paths. -/
theorem insertedRecord_spec {ns key : String} {rest : List String} {value record : Value F}
    {db : Database} (h : db.insertedRecord codec ns key rest value = .ok record) :
    (valueView F).getPath rest record = some value ∧
    (∀ p, Apart p rest → (valueView F).getPath p record = db.readPath codec ns (key :: p)) ∧
    (record = .null ↔ rest = [] ∧ value = .null) := by
  cases rest with
  | nil =>
    obtain rfl := Except.ok.inj h
    refine ⟨rfl, fun p hp => absurd rfl hp.symm.ne_nil, fun hnull => ⟨rfl, hnull⟩, And.right⟩
  | cons k rest =>
    obtain ⟨old, hold, halter⟩ : ∃ old : Value F,
        (∀ p, p ≠ [] → (valueView F).getPath p old = db.readPath codec ns (key :: p)) ∧
        (valueView F).alterPath (some (.dict [])) (fun _ => some (some value)) (k :: rest) old =
          some record := by
      have hempty (p : List String) (hp : p ≠ []) :
          (valueView F).getPath p (.dict []) = none := by
        obtain ⟨x, p, rfl⟩ := List.exists_cons_of_ne_nil hp
        rfl
      rw [insertedRecord] at h
      · cases hrecord : db.getRecord codec ns key with
        | error e =>
          have hread := readPath_of_error hrecord
          rw [hrecord] at h
          cases e with
          | notFound =>
            refine ⟨.dict [], fun p hp => (hempty p hp).trans (hread p).symm, ?_⟩
            simp only [Value.isDict, if_true] at h
            split at h
            · cases h
            · rename_i halter
              exact halter.trans (congrArg some (Except.ok.inj h))
          | _ => cases h
        | ok old =>
          have hread := readPath_of_record hrecord
          rw [hrecord] at h
          refine ⟨if old.isDict then old else .dict [], fun p hp => ?_, ?_⟩
          · rw [hread]
            split
            · rfl
            · rename_i hdict
              obtain ⟨x, p, rfl⟩ := List.exists_cons_of_ne_nil hp
              cases old with
              | dict items => exact absurd rfl hdict
              | _ => rfl
          · simp only at h
            split at h
            · cases h
            · rename_i halter
              exact halter.trans (congrArg some (Except.ok.inj h))
      · exact List.cons_ne_nil _ _
    have hdefault : ∀ e ∈ some (Value.dict ([] : List (String × Value F))),
        (valueView F).fields e = some [] := fun e he => by
      rw [← Option.some.inj he]
      rfl
    have hat := ObjectView.getPath_alterPath halter hdefault
    refine ⟨(Option.some.inj hat).symm, fun p hp => ?_, fun hnull => ?_, fun hnull => absurd hnull.1 (List.cons_ne_nil _ _)⟩
    · rw [ObjectView.getPath_alterPath_apart halter hp hdefault, hold p hp.ne_nil]
    · obtain ⟨items, hitems⟩ := alterPath_dict halter
      cases hitems.symm.trans hnull

theorem insertedRecord_of_none (codec : RecordCodec F) {ns key : String} {db : Database}
    (h : db.get₂ ns key = none) (rest : List String) (value : Value F) :
    db.insertedRecord codec ns key rest value = .ok (nestedValue value rest) := by
  cases rest with
  | nil => rfl
  | cons k rest =>
    have hrecord : db.getRecord codec ns key = .error .notFound := by rw [getRecord, h]
    rw [insertedRecord, hrecord]
    · simp only [Value.isDict, if_true, alterPath_empty]
    · exact fun hnil => nomatch hnil

/-- The record of an update has the new value at its path, in place of an old one. -/
theorem updatedRecord_spec {rest : List String} {value old record : Value F}
    (h : updatedRecord rest value old = .ok record) :
    (∃ v, (valueView F).getPath rest old = some v ∧
      (valueView F).getPath rest record = some (v.updated value)) ∧
    (∀ p, Apart p rest → (valueView F).getPath p record = (valueView F).getPath p old) ∧
    record ≠ .null := by
  cases rest with
  | nil =>
    refine ⟨⟨old, rfl, ?_⟩, fun p hp => absurd rfl hp.symm.ne_nil, ?_⟩
    · rw [updatedRecord] at h
      split at h
      · exact congrArg some (Except.ok.inj h).symm
      · rename_i hdict
        have hnew : old.updated value = value := by
          cases old with
          | dict items =>
            cases value with
            | dict items' => exact absurd rfl hdict
            | _ => rfl
          | _ => rfl
        rw [hnew]
        split at h
        · cases h
        · exact congrArg some (Except.ok.inj h).symm
    · rw [updatedRecord] at h
      split at h
      · rename_i hdict
        cases old with
        | dict items =>
          cases value with
          | dict items' =>
            rw [← Except.ok.inj h]
            exact fun hnull => nomatch hnull
          | _ => exact absurd hdict Bool.false_ne_true
        | _ => exact absurd hdict Bool.false_ne_true
      · split at h
        · cases h
        · rename_i hne
          rintro rfl
          obtain rfl := Except.ok.inj h
          exact hne rfl
  | cons k rest =>
    rw [updatedRecord] at h
    · split at h
      · rename_i halter
        obtain rfl := Except.ok.inj h
        have hdefault : ∀ e ∈ (none : Option (Value F)), (valueView F).fields e = some [] :=
          fun e he => nomatch he
        obtain ⟨v, hv, hnew⟩ :=
          Option.map_eq_some_iff.mp (ObjectView.getPath_alterPath halter hdefault)
        refine ⟨⟨v, hv, hnew.symm⟩,
          fun p hp => ObjectView.getPath_alterPath_apart halter hp hdefault, ?_⟩
        obtain ⟨items, rfl⟩ := alterPath_dict halter
        exact fun hnull => nomatch hnull
      · cases h
    · exact fun hnil => nomatch hnil

/-! ## The operations -/

theorem insertRecord_eq (codec : RecordCodec F) (env : Lmdb) {v : Value F} (hv : v ≠ .null)
    (ns key : String) (db : Database) :
    db.insertRecord codec env ns key v =
      match encodeValue codec v with
      | none => (.error .codec, db)
      | some bytes =>
        if env.takes key bytes then (.ok (), db.put ns key bytes) else (.error .lmdb, db) := by
  cases v with
  | null => exact absurd rfl hv
  | _ => rfl

theorem insertRecord_cases (codec : RecordCodec F) (env : Lmdb) {v : Value F} (hv : v ≠ .null)
    (ns key : String) (db : Database) :
    (∃ e, db.insertRecord codec env ns key v = (.error e, db)) ∨
    ∃ bytes, encodeValue codec v = some bytes ∧ env.takes key bytes = true ∧
      db.insertRecord codec env ns key v = (.ok (), db.put ns key bytes) := by
  rw [insertRecord_eq codec env hv]
  split
  · exact Or.inl ⟨_, rfl⟩
  · rename_i bytes hbytes
    split
    · rename_i htakes
      exact Or.inr ⟨bytes, hbytes, htakes, rfl⟩
    · exact Or.inl ⟨_, rfl⟩

end Database

open Database

/-- The calls that write. -/
inductive DbCall (F : Type)
  | insert (value : Value F)
  | update (value : Value F)
  | delete (dropEmptyDb : Bool)

namespace DbCall

/-- The operation that a call runs. -/
def run (codec : RecordCodec F) (env : Lmdb) (ns : String) (key : DbKey) (call : DbCall F)
    (db : Database) : Except DatabaseError Unit × Database :=
  match call with
  | .insert value => db.insertItem codec env ns key value
  | .update value => db.updateItem codec env ns key value
  | .delete dropEmptyDb =>
    match db.deleteItem codec env ns key dropEmptyDb with
    | (.error e, db) => (.error e, db)
    | (.ok _, db) => (.ok (), db)

/-- What `get_item` of the key gives after the call, when `old` is what it gave before. -/
def result (call : DbCall F) (old : Option (Value F)) : Option (Value F) :=
  match call with
  | .insert value => some value
  | .update value => old.map (·.updated value)
  | .delete _ => none

/-- The key leads to the result of the call, and every path that is neither a prefix nor an
extension of it leads to what it did before. -/
structure Effect (codec : RecordCodec F) (ns : String) (key : DbKey) (result : Option (Value F))
    (db db' : Database) : Prop where
  at_key : db'.getItem codec ns key none = result
  elsewhere : ∀ ns' p keys, key.process = some keys → ns' ≠ ns ∨ Apart p keys →
    db'.getItem codec ns' (.path p) none = db.getItem codec ns' (.path p) none

/-- The call raises an exception and changes nothing, or it has its effect. -/
def Algebraic (codec : RecordCodec F) (env : Lmdb) (ns : String) (key : DbKey) (call : DbCall F)
    (db : Database) : Prop :=
  match call.run codec env ns key db with
  | (.error _, db') => db' = db
  | (.ok _, db') => Effect codec ns key (call.result (db.getItem codec ns key none)) db db'

/-- A record that is encoded and put. -/
def Storable (codec : RecordCodec F) (env : Lmdb) (key : String) (record : Value F) : Prop :=
  ∃ bytes, encodeValue codec record = some bytes ∧ env.takes key bytes = true

/-- The condition on a call: an insert stores no null value at the record level, and an insert
that opens a new namespace stores its record. -/
def Condition (codec : RecordCodec F) (env : Lmdb) (ns : String) (key : DbKey) (call : DbCall F)
    (db : Database) : Prop :=
  match call with
  | .insert value => ∀ k rest, key.process = some (k :: rest) →
      (db.get ns ≠ none → ¬(rest = [] ∧ value = .null)) ∧
      (db.get ns = none → env.opens ns = true → Storable codec env k (nestedValue value rest))
  | .update _ | .delete _ => True

variable {ns : String} {key : DbKey} {db db' : Database}

theorem getItem_of_process {keys : List String} (h : key.process = some keys)
    (ns : String) (db : Database) :
    db.getItem codec ns key none = db.readPath codec ns keys := by
  rw [getItem, h]
  exact Option.or_none

theorem effect_of_path {keys : List String} {result : Option (Value F)}
    (hkey : key.process = some keys) (h : PathEffect codec ns keys result db db') :
    Effect codec ns key result db db' := by
  refine ⟨(getItem_of_process hkey ns db').trans h.at_key, fun ns' p keys' hkeys' hp => ?_⟩
  obtain rfl := Option.some.inj (hkey.symm.trans hkeys')
  rw [getItem, getItem]
  cases hprocess : (DbKey.path p).process with
  | none => rfl
  | some q =>
    have hq : q = p := by
      rw [DbKey.process] at hprocess
      split at hprocess
      · cases hprocess
      · exact (Option.some.inj hprocess).symm
    subst hq
    exact congrArg (Option.or · none) (h.elsewhere ns' q hp)

theorem not_effect_null {k : String} (hkey : key.process = some [k]) :
    ¬Effect codec ns key (some .null) db db' := fun h =>
  readPath_ne_null ns k db' ((getItem_of_process hkey ns db').symm.trans h.at_key)

theorem algebraic_of_error {call : DbCall F} (e : DatabaseError)
    (h : call.run codec env ns key db = (.error e, db)) : Algebraic codec env ns key call db := by
  rw [Algebraic, h]

theorem algebraic_of_ok {call : DbCall F} (db' : Database)
    (h : call.run codec env ns key db = (.ok (), db'))
    (heffect : Effect codec ns key (call.result (db.getItem codec ns key none)) db db') :
    Algebraic codec env ns key call db := by
  rw [Algebraic, h]
  exact heffect

theorem update_algebraic (ns : String) (key : DbKey) (value : Value F) (db : Database) :
    Algebraic codec env ns key (.update value) db := by
  cases hkey : key.process with
  | none => exact algebraic_of_error .invalidKey (by rw [run, updateItem, hkey])
  | some keys =>
    cases keys with
    | nil => exact algebraic_of_error .invalidKey (by rw [run, updateItem, hkey])
    | cons k rest =>
      cases hrecord : db.getRecord codec ns k with
      | error e => exact algebraic_of_error e (by simp only [run, updateItem, hkey, hrecord])
      | ok old =>
        cases hupdated : updatedRecord rest value old with
        | error e =>
          exact algebraic_of_error e (by simp only [run, updateItem, hkey, hrecord, hupdated])
        | ok record =>
          obtain ⟨⟨v, hv, hnew⟩, hkept, hnull⟩ := updatedRecord_spec hupdated
          obtain ⟨e, he⟩ | ⟨bytes, hbytes, -, hput⟩ :=
            insertRecord_cases codec env hnull ns k db
          · exact algebraic_of_error e (by simp only [run, updateItem, hkey, hrecord, hupdated, he])
          · refine algebraic_of_ok (db.put ns k bytes)
              (by simp only [run, updateItem, hkey, hrecord, hupdated, hput]) ?_
            have heffect := pathEffect_put _ hbytes (fun _ _ => rfl) fun p hp =>
              (hkept p hp).trans (readPath_of_record hrecord p).symm
            rw [hnew] at heffect
            rw [getItem_of_process hkey, readPath_of_record hrecord, hv]
            exact effect_of_path hkey heffect

theorem delete_algebraic (ns : String) (key : DbKey) (dropEmptyDb : Bool) (db : Database) :
    Algebraic codec env ns key (.delete dropEmptyDb) db := by
  cases hkey : key.process with
  | none => exact algebraic_of_error .invalidKey (by rw [run, deleteItem, hkey])
  | some keys =>
    cases keys with
    | nil => exact algebraic_of_error .invalidKey (by rw [run, deleteItem, hkey])
    | cons k rest =>
      cases hrecord : db.getRecord codec ns k with
      | error e => exact algebraic_of_error e (by simp only [run, deleteItem, hkey, hrecord])
      | ok old =>
        cases rest with
        | nil =>
          refine algebraic_of_ok (db.removeRecord ns k dropEmptyDb)
            (by simp only [run, deleteItem, hkey, hrecord]) (effect_of_path hkey ?_)
          exact pathEffect_remove fun p hp => absurd rfl hp.symm.ne_nil
        | cons k' rest =>
          cases hval : (valueView F).getPath (k' :: rest) old with
          | none =>
            exact algebraic_of_error .notFound (by simp only [run, deleteItem, hkey, hrecord, hval])
          | some val =>
            cases halter : (valueView F).alterPath none (Option.map fun _ => none) (k' :: rest)
                old with
            | none =>
              exact algebraic_of_error .notFound
                (by simp only [run, deleteItem, hkey, hrecord, hval, halter])
            | some record =>
              have hdefault : ∀ e ∈ (none : Option (Value F)), (valueView F).fields e = some [] :=
                fun e he => absurd he (Option.not_mem_none e)
              have hat := ObjectView.getPath_alterPath halter hdefault
              rw [hval] at hat
              have hkept (p : List String) (hp : Apart p (k' :: rest)) :
                  (valueView F).getPath p record = db.readPath codec ns (k :: p) :=
                (ObjectView.getPath_alterPath_apart halter hp hdefault).trans
                  (readPath_of_record hrecord p).symm
              obtain ⟨items, rfl⟩ := alterPath_dict halter
              cases items with
              | nil =>
                -- the record is empty and removed
                refine algebraic_of_ok (db.removeRecord ns k dropEmptyDb)
                  (by simp only [run, deleteItem, hkey, hrecord, hval, halter])
                  (effect_of_path hkey (pathEffect_remove fun p hp => ?_))
                obtain ⟨x, p, rfl⟩ := List.exists_cons_of_ne_nil hp.ne_nil
                exact (hkept (x :: p) hp).symm
              | cons item items =>
                obtain ⟨e, he⟩ | ⟨bytes, hbytes, -, hput⟩ :=
                  insertRecord_cases codec env (v := .dict (item :: items))
                    (by intro h; cases h) ns k db
                · exact algebraic_of_error e
                    (by simp only [run, deleteItem, hkey, hrecord, hval, halter, he])
                · refine algebraic_of_ok (db.put ns k bytes)
                    (by simp only [run, deleteItem, hkey, hrecord, hval, halter, hput]) ?_
                  have heffect := pathEffect_put _ hbytes (fun _ _ => rfl) hkept
                  rw [← Option.some.inj hat] at heffect
                  exact effect_of_path hkey heffect

theorem insert_eq {k : String} {rest : List String} {value record : Value F} {opened : Database}
    (hkey : key.process = some (k :: rest)) (hopen : db.openNamespace env ns = some opened)
    (hrecord : opened.insertedRecord codec ns k rest value = .ok record) :
    (DbCall.insert value).run codec env ns key db =
      opened.insertRecord codec env ns k record := by
  simp only [run, insertItem, hkey, hopen, hrecord]

theorem insert_stored {k : String} {rest : List String} {value record : Value F}
    {opened : Database} {bytes : List UInt8} (hkey : key.process = some (k :: rest))
    (hopen : db.openNamespace env ns = some opened)
    (hrecord : opened.insertedRecord codec ns k rest value = .ok record)
    (hbytes : encodeValue codec record = some bytes)
    (hput : opened.insertRecord codec env ns k record = (.ok (), opened.put ns k bytes)) :
    Algebraic codec env ns key (.insert value) db := by
  obtain ⟨hvalue, hkept, -⟩ := insertedRecord_spec hrecord
  have hsame := get₂_openNamespace hopen
  refine algebraic_of_ok (opened.put ns k bytes)
    ((insert_eq hkey hopen hrecord).trans hput) (effect_of_path hkey ?_)
  have heffect := pathEffect_put db hbytes hsame fun p hp =>
    (hkept p hp).trans (readPath_congr (hsame ns k) p)
  rw [hvalue] at heffect
  exact heffect

theorem insert_algebraic_of_namespace {k : String} {rest : List String} {value : Value F}
    (hkey : key.process = some (k :: rest)) (hns : db.openNamespace env ns = some db)
    (hnull : ¬(rest = [] ∧ value = .null)) : Algebraic codec env ns key (.insert value) db := by
  cases hrecord : db.insertedRecord codec ns k rest value with
  | error e =>
    exact algebraic_of_error e (by simp only [run, insertItem, hkey, hns, hrecord])
  | ok record =>
    have hne : record ≠ .null := fun h => hnull ((insertedRecord_spec hrecord).2.2.mp h)
    obtain ⟨e, he⟩ | ⟨bytes, hbytes, -, hput⟩ := insertRecord_cases codec env hne ns k db
    · exact algebraic_of_error e ((insert_eq hkey hns hrecord).trans he)
    · exact insert_stored hkey hns hrecord hbytes hput

/-- Into a new namespace, an insert has its effect when its record is stored: whatever else
happens, the namespace stays. -/
theorem insert_algebraic_of_new {k : String} {rest : List String} {value : Value F}
    (hkey : key.process = some (k :: rest)) (hns : db.get ns = none)
    (hopens : env.opens ns = true) :
    Algebraic codec env ns key (.insert value) db ↔
      Storable codec env k (nestedValue value rest) := by
  have hopen : db.openNamespace env ns = some (db.set ns .empty) := by
    rw [openNamespace, hns]
    exact if_pos hopens
  have hnone : (Table.set ns .empty db).get₂ ns k = none := by
    rw [get₂_openNamespace hopen, Table.get₂, hns]
    rfl
  have hrecord := insertedRecord_of_none codec hnone rest value
  have hrun := insert_eq hkey hopen hrecord
  have hchanged : db.set ns .empty ≠ db := fun h => by
    have hget := congrArg (Table.get ns) h
    rw [Table.get_set, if_pos rfl, hns] at hget
    cases hget
  by_cases hnull : nestedValue value rest = .null
  · obtain ⟨rfl, rfl⟩ := (insertedRecord_spec hrecord).2.2.mp hnull
    refine ⟨fun h => ?_, fun ⟨bytes, hbytes, _⟩ => nomatch hbytes⟩
    have hok : (DbCall.insert (.null : Value F)).run codec env ns key db =
        (.ok (), db.set ns .empty) := hrun
    rw [Algebraic, hok] at h
    exact absurd h (not_effect_null hkey)
  · have hinsert := insertRecord_eq codec env hnull ns k (db.set ns .empty)
    constructor
    · intro h
      cases hbytes : encodeValue codec (nestedValue value rest) with
      | none =>
        rw [hbytes] at hinsert
        rw [Algebraic, hrun.trans hinsert] at h
        exact absurd h hchanged
      | some bytes =>
        by_cases htakes : env.takes k bytes = true
        · exact ⟨bytes, hbytes, htakes⟩
        · rw [hbytes] at hinsert
          simp only [if_neg htakes] at hinsert
          rw [Algebraic, hrun.trans hinsert] at h
          exact absurd h hchanged
    · rintro ⟨bytes, hbytes, htakes⟩
      rw [hbytes] at hinsert
      simp only [if_pos htakes] at hinsert
      exact insert_stored hkey hopen hrecord hbytes hinsert

/-- **The nested operations are algebraic** exactly on the calls that meet the condition. -/
theorem algebraic_iff_condition (codec : RecordCodec F) (env : Lmdb) (ns : String) (key : DbKey)
    (call : DbCall F) (db : Database) :
    Algebraic codec env ns key call db ↔ Condition codec env ns key call db := by
  cases call with
  | update value => exact ⟨fun _ => trivial, fun _ => update_algebraic ns key value db⟩
  | delete drop => exact ⟨fun _ => trivial, fun _ => delete_algebraic ns key drop db⟩
  | insert value =>
    have hinvalid (hkey : ∀ k rest, key.process ≠ some (k :: rest))
        (hrun : (DbCall.insert value).run codec env ns key db = (.error .invalidKey, db)) :
        Algebraic codec env ns key (.insert value) db ↔
          Condition codec env ns key (.insert value) db :=
      ⟨fun _ k rest h => absurd h (hkey k rest), fun _ => algebraic_of_error _ hrun⟩
    cases hkey : key.process with
    | none => exact hinvalid (fun k rest h => nomatch hkey.symm.trans h) (by
        rw [run, insertItem, hkey])
    | some keys =>
      cases keys with
      | nil => exact hinvalid (fun k rest h => nomatch hkey.symm.trans h) (by
          rw [run, insertItem, hkey])
      | cons k rest =>
        have hcondition : Condition codec env ns key (.insert value) db ↔
            (db.get ns ≠ none → ¬(rest = [] ∧ value = .null)) ∧
            (db.get ns = none → env.opens ns = true →
              Storable codec env k (nestedValue value rest)) := by
          refine ⟨fun h => h k rest hkey, fun h k' rest' hkey' => ?_⟩
          obtain ⟨rfl, rfl⟩ := List.cons.inj (Option.some.inj (hkey.symm.trans hkey'))
          exact h
        rw [hcondition]
        cases hns : db.get ns with
        | some records =>
          have hopen : db.openNamespace env ns = some db := by rw [openNamespace, hns]
          refine ⟨fun h => ⟨fun _ hnull => ?_, (fun hnone => nomatch hnone)⟩,
            fun h => insert_algebraic_of_namespace hkey hopen (h.1 (fun hnone => nomatch hnone))⟩
          obtain ⟨rfl, rfl⟩ := hnull
          have hrun : (DbCall.insert (.null : Value F)).run codec env ns key db = (.ok (), db) :=
            insert_eq hkey hopen rfl
          rw [Algebraic, hrun] at h
          exact absurd h (not_effect_null hkey)
        | none =>
          by_cases hopens : env.opens ns = true
          · rw [insert_algebraic_of_new hkey hns hopens]
            exact ⟨fun h => ⟨fun hne => absurd rfl hne, fun _ _ => h⟩, fun h => h.2 rfl hopens⟩
          · have hopen : db.openNamespace env ns = none := by
              rw [openNamespace, hns]
              exact if_neg hopens
            exact ⟨fun _ => ⟨fun hne => absurd rfl hne, fun _ h => absurd h hopens⟩,
              fun _ => algebraic_of_error .lmdb (by simp only [run, insertItem, hkey, hopen])⟩

/-- An integer that does not fit raises an exception, and leaves a new namespace. -/
theorem namespace_after_overflow :
    ¬Algebraic scalarCodec ⟨fun _ => true, fun _ _ => true⟩ "mainsail" (.text "limit")
      (.insert (.int (2 ^ 63))) .empty := by
  intro h
  have hget := congrArg (Table.get "mainsail") (show _ = (Table.empty : Database) from h)
  revert hget
  decide

end DbCall

end FlsunT1.Moonraker
