/-
  Moonraker/Database.lean --- nested records (moonraker/components/database.py).

  A namespace maps record keys to typed byte strings.  The operations decode a record, change
  it along a path of keys and store it again.  An exception ends an operation; what was done
  before it, such as opening a new namespace, stays.
-/
import FlsunT1.Library.Bytes
import FlsunT1.Library.Nested
import FlsunT1.Library.Table
import FlsunT1.Library.Utf8

set_option autoImplicit false

namespace FlsunT1.Moonraker

open Library

/-! ## Values and records -/

/-- What a record may hold; `F` stands for the floating point numbers. -/
inductive Value (F : Type) where
  | null
  | bool (b : Bool)
  | int (n : ℤ)
  | float (x : F)
  | str (s : String)
  | list (items : List (Value F))
  | dict (items : List (String × Value F))

/-- The numbers and the JSON texts of records, as `struct` and `json` document them: what was
written is read back, and the texts of lists and of objects show what they are. -/
structure RecordCodec (F : Type) where
  packDouble : F → List UInt8
  unpackDouble : List UInt8 → F
  unpack_pack : ∀ x, unpackDouble (packDouble x) = x
  dumps : Value F → Option (List UInt8)
  loads : List UInt8 → Option (Value F)
  loads_dumps : ∀ v text, dumps v = some text → loads text = some v
  loads_ne_null : ∀ text, text.head? = some 91 ∨ text.head? = some 123 → loads text ≠ some .null
  dumps_list : ∀ items text, dumps (.list items) = some text → text.head? = some 91
  dumps_dict : ∀ items text, dumps (.dict items) = some text → text.head? = some 123

/-- What `lmdb` lets through: opening a namespace, and putting a record.  Where it does not,
it raises an exception and nothing is stored. -/
structure Lmdb where
  opens : String → Bool
  takes : String → List UInt8 → Bool

variable {F : Type}

/-- `_encode_value`, with `RECORD_ENCODE_FUNCS` -/
def encodeValue (codec : RecordCodec F) : Value F → Option (List UInt8)
  | .null => none
  | .bool b => some [63, if b then 1 else 0]
  | .int n => if -2 ^ 63 ≤ n ∧ n < 2 ^ 63 then some (113 :: packSigned n) else none
  | .float x => some (100 :: codec.packDouble x)
  | .str s => some (115 :: encodeUtf8 s.toList)
  | .list items => codec.dumps (.list items)
  | .dict items => codec.dumps (.dict items)

/-- `_decode_value`, with `RECORD_DECODE_FUNCS` -/
def decodeValue (codec : RecordCodec F) : List UInt8 → Option (Value F)
  | [] => none
  | fmt :: bytes =>
    if fmt = 113 then some (.int (unpackSigned bytes))
    else if fmt = 100 then some (.float (codec.unpackDouble bytes))
    else if fmt = 63 then some (.bool (bytes.head? != some 0))
    else if fmt = 115 then (decodeUtf8 bytes).map .str
    else if fmt = 91 ∨ fmt = 123 then codec.loads (fmt :: bytes)
    else none

/-- Dictionaries are the values that have fields. -/
def valueView (F : Type) : ObjectView String (Value F) where
  fields
    | .dict items => some items
    | _ => none
  object := .dict
  fields_object _ := rfl

/-- `isinstance(v, dict)` -/
def Value.isDict : Value F → Bool
  | .dict _ => true
  | _ => false

/-- `v is None` -/
def Value.isNull : Value F → Bool
  | .null => true
  | _ => false

/-- `record.update(value)` where both are objects, and the new value otherwise. -/
def Value.updated (old new : Value F) : Value F :=
  match old, new with
  | .dict items, .dict items' =>
    .dict (items'.foldl (fun items kv => Dict.setItem kv.1 kv.2 items) items)
  | _, new => new

/-- A codec for records that are no lists, objects or fractions. -/
def scalarCodec : RecordCodec Unit where
  packDouble _ := []
  unpackDouble _ := ()
  unpack_pack _ := rfl
  dumps _ := none
  loads _ := none
  loads_dumps _ _ h := nomatch h
  loads_ne_null _ _ := (fun h => nomatch h)
  dumps_list _ _ h := nomatch h
  dumps_dict _ _ h := nomatch h

/-! ## The database -/

/-- The records of the namespaces. -/
abbrev Database := Table String (Table String (List UInt8))

/-- Why an operation raises an exception. -/
inductive DatabaseError
  /-- "Invalid Key Format" -/
  | invalidKey
  /-- A namespace, a record or a key that is not found, with status 404. -/
  | notFound
  /-- An item on the way is no dictionary. -/
  | notObject
  /-- "Cannot assign a record level null value" -/
  | nullRecord
  /-- "Error encoding val" and "Error decoding value" -/
  | codec
  /-- An exception of `lmdb`. -/
  | lmdb
  deriving DecidableEq

/-- A key, as it comes in a request. -/
inductive DbKey
  | text (key : String)
  | path (keys : List String)

/-- `_process_key` -/
def DbKey.process (key : DbKey) : Option (List String) :=
  let keyList := match key with
    | .text key => (key.toList.splitOn '.').map String.ofList
    | .path keys => keys
  if keyList = [] ∨ "" ∈ keyList then none else some keyList

namespace Database

variable (codec : RecordCodec F) (env : Lmdb)

/-- `_get_record` -/
def getRecord (ns key : String) (db : Database) : Except DatabaseError (Value F) :=
  match db.get₂ ns key with
  | none => .error .notFound
  | some bytes =>
    match decodeValue codec bytes with
    | none => .error .codec
    | some v => .ok v

/-- The value at the end of a path, if there is one. -/
def readPath (ns : String) (keys : List String) (db : Database) : Option (Value F) :=
  match keys with
  | [] => none
  | key :: rest => (getRecord codec ns key db).toOption.bind ((valueView F).getPath rest)

/-- `_get_impl` with a key: without a default, an item that is not found raises. -/
def getItem (ns : String) (key : DbKey) (default : Option (Value F)) (db : Database) :
    Option (Value F) :=
  match key.process with
  | none => default
  | some keys => (db.readPath codec ns keys).or default

/-- The records of a namespace with `key` put in. -/
def put (ns key : String) (bytes : List UInt8) (db : Database) : Database :=
  db.set ns (((db.get ns).getD .empty).set key bytes)

/-- `_insert_record`.  A null value is not stored, which the callers only log. -/
def insertRecord (ns key : String) (v : Value F) (db : Database) :
    Except DatabaseError Unit × Database :=
  match v with
  | .null => (.ok (), db)
  | v =>
    match encodeValue codec v with
    | none => (.error .codec, db)
    | some bytes =>
      if env.takes key bytes then (.ok (), db.put ns key bytes) else (.error .lmdb, db)

/-- `open_db` for a namespace that is not there yet. -/
def openNamespace (ns : String) (db : Database) : Option Database :=
  match db.get ns with
  | some _ => some db
  | none => if env.opens ns then some (db.set ns .empty) else none

/-- The record that an insert below the record level stores. -/
def insertedRecord (ns key : String) (rest : List String) (value : Value F) (db : Database) :
    Except DatabaseError (Value F) :=
  match rest with
  | [] => .ok value
  | rest =>
    let record : Except DatabaseError (Value F) :=
      match db.getRecord codec ns key with
      | .error .notFound => .ok (.dict [])
      | record => record
    match record with
    | .error e => .error e
    | .ok record =>
      -- a record that is no object is overwritten
      let record := if record.isDict then record else .dict []
      match (valueView F).alterPath (some (.dict [])) (fun _ => some (some value)) rest record with
      | none => .error .notObject
      | some record => .ok record

/-- `_insert_impl` -/
def insertItem (ns : String) (key : DbKey) (value : Value F) (db : Database) :
    Except DatabaseError Unit × Database :=
  match key.process with
  | none | some [] => (.error .invalidKey, db)
  | some (key :: rest) =>
    match db.openNamespace env ns with
    | none => (.error .lmdb, db)
    | some db =>
      match db.insertedRecord codec ns key rest value with
      | .error e => (.error e, db)
      | .ok record => db.insertRecord codec env ns key record

/-- The record that an update stores. -/
def updatedRecord (rest : List String) (value record : Value F) :
    Except DatabaseError (Value F) :=
  match rest with
  | [] =>
    if record.isDict && value.isDict then .ok (record.updated value)
    else if value.isNull then .error .nullRecord
    else .ok value
  | rest =>
    match (valueView F).alterPath none (Option.map fun old => some (old.updated value)) rest
        record with
    | some record => .ok record
    | none =>
      .error (if ((valueView F).getPath rest.dropLast record).isSome && record.isDict then
        .notObject else .notFound)

/-- `_update_impl` -/
def updateItem (ns : String) (key : DbKey) (value : Value F) (db : Database) :
    Except DatabaseError Unit × Database :=
  match key.process with
  | none | some [] => (.error .invalidKey, db)
  | some (key :: rest) =>
    match db.getRecord codec ns key with
    | .error e => (.error e, db)
    | .ok record =>
      match updatedRecord rest value record with
      | .error e => (.error e, db)
      | .ok record => db.insertRecord codec env ns key record

/-- The record that is deleted is removed from its namespace, and the namespace with it
when it is empty and `dropEmptyDb` is set. -/
def removeRecord (ns key : String) (dropEmptyDb : Bool) (db : Database) : Database :=
  let records := ((db.get ns).getD .empty).erase key
  if records = .empty ∧ dropEmptyDb then db.erase ns else db.set ns records

/-- `_delete_impl`, with the value that was there. -/
def deleteItem (ns : String) (key : DbKey) (dropEmptyDb : Bool) (db : Database) :
    Except DatabaseError (Value F) × Database :=
  match key.process with
  | none | some [] => (.error .invalidKey, db)
  | some (key :: rest) =>
    match db.getRecord codec ns key with
    | .error e => (.error e, db)
    | .ok record =>
      match rest with
      | [] => (.ok record, db.removeRecord ns key dropEmptyDb)
      | rest =>
        match (valueView F).getPath rest record,
            (valueView F).alterPath none (Option.map fun _ => none) rest record with
        | some val, some (.dict []) => (.ok val, db.removeRecord ns key dropEmptyDb)
        | some val, some record =>
          match db.insertRecord codec env ns key record with
          | (.error e, db) => (.error e, db)
          | (.ok _, db) => (.ok val, db)
        | _, _ => (.error .notFound, db)

end Database

end FlsunT1.Moonraker
