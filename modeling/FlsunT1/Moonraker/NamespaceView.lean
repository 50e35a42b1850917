/-
  Moonraker/NamespaceView.lean --- a namespace as the map that its records make.

  One lemma for each operation on whole records: where it succeeds, it does to the map what its
  name says.
-/
import FlsunT1.Library.Renames
import FlsunT1.Moonraker.Authorization
import FlsunT1.Moonraker.DatabaseAlgebra
import FlsunT1.Moonraker.DatabaseJobs

set_option autoImplicit false

namespace FlsunT1.Moonraker

open Library

variable {F : Type} {codec : RecordCodec F} {env : Lmdb} {ns : String} {db : Database}
  {f : String → Option (Value F)}

/-- The namespace is open, and its records are decoded to the values of `f`. -/
structure Holds (codec : RecordCodec F) (ns : String) (db : Database)
    (f : String → Option (Value F)) : Prop where
  opened : ∃ records, db.get ns = some records
  reads : ∀ key, (db.get₂ ns key).map (decodeValue codec) = (f key).map some

/-! ## Reading -/

theorem Holds.decode {key : String} {bytes : List UInt8} (h : Holds codec ns db f)
    (hbytes : db.get₂ ns key = some bytes) : decodeValue codec bytes = f key ∧ f key ≠ none := by
  have hread := h.reads key
  rw [hbytes, Option.map_some] at hread
  obtain ⟨v, hv, heq⟩ := Option.map_eq_some_iff.mp hread.symm
  rw [← heq, hv]
  exact ⟨rfl, Option.some_ne_none v⟩

theorem Holds.get₂_eq_none_iff {key : String} (h : Holds codec ns db f) :
    db.get₂ ns key = none ↔ f key = none := by
  have hread := h.reads key
  cases hbytes : db.get₂ ns key with
  | none =>
    rw [hbytes, Option.map_none] at hread
    exact iff_of_true rfl (Option.map_eq_none_iff.mp hread.symm)
  | some bytes => exact iff_of_false (Option.some_ne_none _) (h.decode hbytes).2

/-- What `as_dict` returns is the map. -/
theorem Holds.asDict (h : Holds codec ns db f) :
    ∃ d, db.asDict codec ns = some d ∧ ∀ key, d.get key = f key := by
  obtain ⟨records, hrecords⟩ := h.opened
  have hget (key : String) : db.get₂ ns key = records.get key := by
    rw [Table.get₂, hrecords]
    rfl
  have hmap := Table.mapM_of_forall (f := fun _ bytes => decodeValue codec bytes) (t := records)
    fun key bytes hbytes => by
      obtain ⟨hdecode, hsome⟩ := h.decode ((hget key).trans hbytes)
      rw [hdecode]
      exact Option.ne_none_iff_exists'.mp hsome
  refine ⟨records.filterMap fun _ bytes => decodeValue codec bytes, ?_, fun key => ?_⟩
  · rw [Database.asDict, hrecords]
    exact hmap
  · rw [Table.get_filterMap, ← hget]
    cases hbytes : db.get₂ ns key with
    | none => exact (h.get₂_eq_none_iff.mp hbytes).symm
    | some bytes => exact (h.decode hbytes).1

theorem holds_of_asDict {d : Table String (Value F)} (h : db.asDict codec ns = some d) :
    Holds codec ns db d.get := by
  obtain ⟨records, hrecords, hmap⟩ := Option.bind_eq_some_iff.mp h
  refine ⟨⟨records, hrecords⟩, fun key => ?_⟩
  have hget : db.get₂ ns key = records.get key := by
    rw [Table.get₂, hrecords]
    rfl
  rw [hget, Table.get_mapM hmap]
  cases hbytes : records.get key with
  | none => rfl
  | some bytes =>
    obtain ⟨v, hv⟩ := Table.exists_of_mapM hmap hbytes
    rw [Option.map_some, Option.bind_some, hv]
    rfl

/-! ## Single records -/

theorem holds_put (h : Holds codec ns db f) {key : String} {v : Value F} {bytes : List UInt8}
    (hv : decodeValue codec bytes = some v) :
    Holds codec ns (db.put ns key bytes) (Function.update f key (some v)) := by
  refine ⟨⟨_, by rw [Database.put, Table.get_set, if_pos rfl]⟩, fun key' => ?_⟩
  rw [Database.get₂_put, Function.update_apply]
  by_cases hkey : key' = key
  · rw [if_pos ⟨rfl, hkey⟩, if_pos hkey, Option.map_some, hv]
    rfl
  · rw [if_neg fun h => hkey h.2, if_neg hkey, h.reads]

theorem holds_removeRecord (h : Holds codec ns db f) (key : String) :
    Holds codec ns (db.removeRecord ns key false) (Function.update f key none) := by
  refine ⟨⟨((db.get ns).getD .empty).erase key, ?_⟩, fun key' => ?_⟩
  · rw [Database.removeRecord, if_neg fun h => Bool.false_ne_true h.2, Table.get_set, if_pos rfl]
  · rw [Database.get₂_removeRecord, Function.update_apply]
    by_cases hkey : key' = key
    · rw [if_pos ⟨rfl, hkey⟩, if_pos hkey]
      rfl
    · rw [if_neg fun h => hkey h.2, if_neg hkey, h.reads]

/-- A record that is encoded and taken under its key. -/
def Storable (codec : RecordCodec F) (env : Lmdb) (key : String) (v : Value F) : Prop :=
  key ≠ "" ∧ ∃ bytes, encodeValue codec v = some bytes ∧ env.takes key bytes = true

theorem process_singleton {key : String} (h : key ≠ "") :
    (DbKey.path [key]).process = some [key] :=
  if_neg (not_or.mpr ⟨List.cons_ne_nil _ _, fun hmem => h (List.mem_singleton.mp hmem).symm⟩)

theorem holds_insert (h : Holds codec ns db f) {key : String} {v : Value F}
    (hv : Storable codec env key v) :
    Holds codec ns ((WrapperOp.insert (.text key) v).effect codec env ns false db)
      (Function.update f key (some v)) := by
  obtain ⟨hkey, bytes, hbytes, htakes⟩ := hv
  obtain ⟨records, hrecords⟩ := h.opened
  have hopen : db.openNamespace env ns = some db := by rw [Database.openNamespace, hrecords]
  have hinsert : (WrapperOp.insert (.text key) v).effect codec env ns false db =
      db.put ns key bytes := by
    show (db.insertItem codec env ns (.path [key]) v).2 = _
    rw [Database.insertItem, process_singleton hkey]
    simp only [hopen, Database.insertedRecord]
    rw [Database.insertRecord.eq_def]
    cases v with
    | null => cases hbytes
    | bool b | int n | float x | str s | list items | dict items =>
      simp only [hbytes, htakes, if_true]
  rw [hinsert]
  exact holds_put h (decodeValue_encodeValue hbytes)

theorem holds_pop (h : Holds codec ns db f) {key : String} (hkey : key ≠ "") :
    Holds codec ns ((WrapperOp.pop (.text key)).effect codec env ns false db)
      (Function.update f key none) := by
  show Holds codec ns (db.deleteItem codec env ns (.path [key]) false).2 _
  rw [Database.deleteItem, process_singleton hkey]
  simp only [Database.getRecord]
  cases hbytes : db.get₂ ns key with
  | none =>
    have hnone : Function.update f key none = f :=
      Function.update_eq_self_iff.mpr (h.get₂_eq_none_iff.mp hbytes).symm
    rw [hnone]
    exact h
  | some bytes =>
    obtain ⟨hdecode, hsome⟩ := h.decode hbytes
    obtain ⟨v, hv⟩ := Option.ne_none_iff_exists'.mp hsome
    simp only [hdecode, hv]
    exact holds_removeRecord h key

/-! ## Batches -/

/-- Moves that go to keys where the records are taken, and not to where later ones begin. -/
structure Movable (env : Lmdb) (ns : String) (db : Database) (pairs : List (String × String)) :
    Prop where
  takes : ∀ p ∈ pairs, ∀ bytes, db.get₂ ns p.1 = some bytes → env.takes p.2 bytes = true
  separate : pairs.Pairwise Separate
  nodup : (pairs.map Prod.fst).Nodup

/-- One move of `_move_batch_impl`. -/
def moveRecord (env : Lmdb) (ns : String) (db : Database) (keys : String × String) :
    Option Database :=
  match db.get₂ ns keys.1 with
  | none => some db
  | some bytes =>
    if env.takes keys.2 bytes then
      some ((db.removeRecord ns keys.1 false).put ns keys.2 bytes)
    else none

theorem holds_moveRecord (h : Holds codec ns db f) {p : String × String}
    (htakes : ∀ bytes, db.get₂ ns p.1 = some bytes → env.takes p.2 bytes = true) :
    ∃ db', moveRecord env ns db p = some db' ∧ Holds codec ns db' (moveEntry f p) ∧
      ∀ key, key ≠ p.1 → key ≠ p.2 → db'.get₂ ns key = db.get₂ ns key := by
  rw [moveRecord]
  cases hbytes : db.get₂ ns p.1 with
  | none =>
    have hentry : moveEntry f p = f := by
      funext key
      rw [moveEntry, h.get₂_eq_none_iff.mp hbytes]
    rw [hentry]
    exact ⟨db, rfl, h, fun _ _ _ => rfl⟩
  | some bytes =>
    obtain ⟨hdecode, hsome⟩ := h.decode hbytes
    obtain ⟨v, hv⟩ := Option.ne_none_iff_exists'.mp hsome
    refine ⟨_, if_pos (htakes bytes hbytes), ?_, fun key hfst hsnd => ?_⟩
    · have hentry : moveEntry f p =
          Function.update (Function.update f p.1 none) p.2 (some v) := by
        funext key
        rw [moveEntry, hv, Function.update_apply, Function.update_apply]
      rw [hentry]
      exact holds_put (holds_removeRecord h p.1) (hdecode.trans hv)
    · rw [Database.get₂_put, if_neg fun h => hsnd h.2, Database.get₂_removeRecord,
        if_neg fun h => hfst h.2]

theorem holds_moveRecords (h : Holds codec ns db f) {pairs : List (String × String)}
    (hpairs : Movable env ns db pairs) :
    ∃ db', pairs.foldlM (moveRecord env ns) db = some db' ∧
      Holds codec ns db' (moveEntries f pairs) := by
  induction pairs generalizing db f with
  | nil => exact ⟨db, rfl, h⟩
  | cons p pairs ih =>
    obtain ⟨hp, hnodup⟩ := List.nodup_cons.mp hpairs.nodup
    obtain ⟨hfirst, hseparate⟩ := List.pairwise_cons.mp hpairs.separate
    obtain ⟨htakes, hrest⟩ := List.forall_mem_cons.mp hpairs.takes
    obtain ⟨db', hmove, hholds, hother⟩ := holds_moveRecord h htakes
    rw [List.foldlM_cons, hmove]
    refine ih hholds ⟨fun q hq bytes hbytes => hrest q hq bytes ?_, hseparate, hnodup⟩
    have hne : q.1 ≠ p.1 := fun heq => hp (heq ▸ List.mem_map_of_mem hq)
    rw [← hother q.1 hne (hfirst q hq).1.symm, hbytes]

theorem holds_moveBatch (h : Holds codec ns db f) {pairs : List (String × String)}
    (hpairs : Movable env ns db pairs) :
    Holds codec ns ((WrapperOp.moveBatch (pairs.map Prod.fst) (pairs.map Prod.snd) :
      WrapperOp F).effect codec env ns false db) (moveEntries f pairs) := by
  obtain ⟨records, hrecords⟩ := h.opened
  obtain ⟨db', hmoves, hholds⟩ := holds_moveRecords h hpairs
  have hbatch : db.moveBatch env ns (pairs.map Prod.fst) (pairs.map Prod.snd) =
      (pairs.foldlM (moveRecord env ns) db).getD db := by
    rw [Database.moveBatch, if_pos ⟨by rw [hrecords]; rfl, by rw [List.length_map, List.length_map]⟩,
      ← List.zip_of_prod rfl rfl]
    rfl
  show Holds codec ns (db.moveBatch env ns (pairs.map Prod.fst) (pairs.map Prod.snd)) _
  rw [hbatch, hmoves]
  exact hholds

/-- One key of `_del_batch_impl`. -/
def deleteRecord (codec : RecordCodec F) (ns : String) (db : Database) (key : String) :
    Option Database :=
  match db.get₂ ns key with
  | none => some db
  | some bytes => (decodeValue codec bytes).map fun _ => db.removeRecord ns key false

theorem holds_deleteRecord (h : Holds codec ns db f) (key : String) :
    ∃ db', deleteRecord codec ns db key = some db' ∧
      Holds codec ns db' (Function.update f key none) := by
  rw [deleteRecord]
  cases hbytes : db.get₂ ns key with
  | none =>
    have hnone : Function.update f key none = f :=
      Function.update_eq_self_iff.mpr (h.get₂_eq_none_iff.mp hbytes).symm
    rw [hnone]
    exact ⟨db, rfl, h⟩
  | some bytes =>
    obtain ⟨hdecode, hsome⟩ := h.decode hbytes
    obtain ⟨v, hv⟩ := Option.ne_none_iff_exists'.mp hsome
    refine ⟨_, ?_, holds_removeRecord h key⟩
    show (decodeValue codec bytes).map _ = _
    rw [hdecode, hv]
    rfl

theorem holds_deleteBatch (env : Lmdb) (h : Holds codec ns db f) (keys : List String) :
    Holds codec ns ((WrapperOp.deleteBatch keys : WrapperOp F).effect codec env ns false db)
      (fun key => if key ∈ keys then none else f key) := by
  have hfold : ∃ db', keys.foldlM (deleteRecord codec ns) db = some db' ∧
      Holds codec ns db' (fun key => if key ∈ keys then none else f key) := by
    induction keys generalizing db f with
    | nil => exact ⟨db, rfl, h⟩
    | cons key keys ih =>
      obtain ⟨db₁, hdelete, hholds⟩ := holds_deleteRecord h key
      obtain ⟨db₂, hrest, hholds⟩ := ih hholds
      refine ⟨db₂, by rw [List.foldlM_cons, hdelete]; exact hrest, ?_⟩
      convert hholds using 2 with key'
      rw [Function.update_apply]
      by_cases hkey : key' = key
      · rw [if_pos (List.mem_cons.mpr (Or.inl hkey)), if_pos hkey, ite_self]
      · rw [if_neg hkey]
        exact if_congr (by rw [List.mem_cons, or_iff_right hkey]) rfl rfl
  obtain ⟨db', hdelete, hholds⟩ := hfold
  show Holds codec ns (db.deleteBatch codec ns keys) _
  have hbatch : db.deleteBatch codec ns keys =
      (keys.foldlM (deleteRecord codec ns) db).getD db := rfl
  rw [hbatch, hdelete]
  exact hholds

end FlsunT1.Moonraker
