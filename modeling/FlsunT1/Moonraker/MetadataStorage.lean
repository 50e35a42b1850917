/-
  Moonraker/MetadataStorage.lean --- the metadata of gcode files
  (class MetadataStorage of moonraker/components/file_manager/file_manager.py).

  The records are kept in a dictionary and in a namespace of the database, whose operations are
  applied in the order in which they are issued.  `pop` issues none: it makes a task, and the
  record is deleted when the task starts.
-/
import FlsunT1.Library.Dict
import FlsunT1.Library.PosixPath
import FlsunT1.Moonraker.Authorization
import FlsunT1.Moonraker.DatabaseJobs

set_option autoImplicit false

namespace FlsunT1.Moonraker

open Library PosixPath

variable {F : Type}

/-! ## Records and requests -/

/-- `METADATA_NAMESPACE` -/
def metadataDb : String := "gcode_metadata"

/-- `VALID_GCODE_EXTS` -/
def validGcodeExts : List Text :=
  [".gcode".toList, ".g".toList, ".gco".toList, ".ufp".toList, ".nc".toList]

/-- The items of a record. -/
abbrev Metadata (F : Type) := List (String × Value F)

/-- What is known of a file that is to be scanned. -/
structure PathInfo (F : Type) where
  size : Option (Value F)
  modified : Option (Value F)
  ufpPath : Option String

/-- Where `_process_metadata_update` is: it was registered, it waits for the script, or an
exception has ended it, and `busy` stays set. -/
inductive UpdateTask (F : Type)
  | idle
  | registered
  | extracting (fname : String) (info : PathInfo F)
  | raised

/-- `class MetadataStorage` with the namespace; `pops` are the keys of the tasks that are to
start. -/
structure MetadataStorage (F : Type) where
  metadata : Dict String (Metadata F)
  pendingRequests : Dict String (PathInfo F)
  update : UpdateTask F
  db : Database
  pops : List String

/-- The encoding of records, what `lmdb` takes, equality of values, and `gc_path`. -/
structure StorageEnv (F : Type) where
  codec : RecordCodec F
  lmdb : Lmdb
  sameValue : Value F → Value F → Bool
  gcPath : Text

variable (env : StorageEnv F)

namespace MetadataStorage

/-! ## Single records -/

/-- An operation of `mddb`, which is applied as soon as it is issued. -/
def issue (op : WrapperOp F) (s : MetadataStorage F) : MetadataStorage F :=
  { s with db := op.effect env.codec env.lmdb metadataDb false s.db }

/-- `insert` -/
def insert (key : String) (value : Metadata F) (s : MetadataStorage F) : MetadataStorage F :=
  { s with metadata := s.metadata.set key value }.issue env (.insert (.text key) (.dict value))

/-- `mddb.pop(key, None)` while the server runs. -/
def popLater (key : String) (s : MetadataStorage F) : MetadataStorage F :=
  { s with pops := s.pops ++ [key] }

/-- The next task of `pop` starts. -/
def startPop (s : MetadataStorage F) : Option (MetadataStorage F) :=
  match s.pops with
  | [] => none
  | key :: pops => some ({ s with pops := pops }.issue env (.pop (.text key)))

/-- `remove_file_metadata` -/
def removeFileMetadata (fname : String) (s : MetadataStorage F) : MetadataStorage F :=
  match s.metadata.get fname with
  | none => s
  | some _ => { s with metadata := s.metadata.erase fname }.popLater fname

/-- `move_file_metadata` -/
def moveFileMetadata (prevFname newFname : String) (s : MetadataStorage F) :
    MetadataStorage F :=
  match s.metadata.get prevFname with
  | none =>
    match s.metadata.get newFname with
    | none => s
    | some _ => { s with metadata := s.metadata.erase newFname }.popLater newFname
  | some metadata =>
    { s with metadata := (s.metadata.erase prevFname).set newFname metadata }.issue env
      (.moveBatch [prevFname] [newFname])

/-! ## Directories -/

/-- The directory with a slash at its end; an empty name raises an exception. -/
def slashed (dirName : Text) : Option Text :=
  dirName.getLast?.map fun last => if last = '/' then dirName else dirName ++ ['/']

/-- One file of the loop of `remove_directory_metadata`, which lists the keys whose records
are not empty. -/
def removeOne (dirName : Text) (acc : Dict String (Metadata F) × List String) (fname : String) :
    Dict String (Metadata F) × List String :=
  if dirName.isPrefixOf fname.toList then
    match acc.1.get fname with
    | none | some [] => (acc.1.erase fname, acc.2)
    | some (_ :: _) => (acc.1.erase fname, acc.2 ++ [fname])
  else acc

/-- `remove_directory_metadata` -/
def removeDirectoryMetadata (dirName : Text) (s : MetadataStorage F) : MetadataStorage F :=
  match slashed dirName with
  | none => s
  | some dirName =>
    let (metadata, delItems) := s.metadata.keys.foldl (removeOne dirName) (s.metadata, [])
    let s := { s with metadata := metadata }
    if delItems = [] then s else s.issue env (.deleteBatch delItems)

/-- The name of a file after its directory was moved. -/
def movedName (prevDir newDir : Text) (prevFname : String) : String :=
  String.ofList (join newDir (prevFname.toList.drop prevDir.length))

/-- One file of the loop of `move_directory_metadata`, which lists the names that were moved. -/
def moveOne (prevDir newDir : Text)
    (acc : Dict String (Metadata F) × List (String × String)) (prevFname : String) :
    Dict String (Metadata F) × List (String × String) :=
  if prevDir.isPrefixOf prevFname.toList then
    match acc.1.get prevFname with
    | none => acc
    | some md =>
      let newFname := movedName prevDir newDir prevFname
      ((acc.1.erase prevFname).set newFname md, acc.2 ++ [(prevFname, newFname)])
  else acc

/-- `move_directory_metadata` -/
def moveDirectoryMetadata (prevDir newDir : Text) (s : MetadataStorage F) :
    MetadataStorage F :=
  match slashed prevDir with
  | none => s
  | some prevDir =>
    let (metadata, moved) := s.metadata.keys.foldl (moveOne prevDir newDir) (s.metadata, [])
    let s := { s with metadata := metadata }
    if moved = [] then s
    else s.issue env (.moveBatch (moved.map Prod.fst) (moved.map Prod.snd))

/-! ## Pruning -/

/-- `'data' in thumb` -/
def hasData : Value F → Bool
  | .dict items => (items.lookup "data").isSome
  | _ => false

/-- `del thumb['data']` -/
def dropData : Value F → Value F
  | .dict items => .dict (items.filter fun item => item.1 ≠ "data")
  | thumb => thumb

/-- The record without the stale data of its thumbnails, if it has some. -/
def pruneThumbs (md : Metadata F) : Option (Metadata F) :=
  match md.lookup "thumbnails" with
  | some (.list thumbs) =>
    if thumbs.any hasData then
      some (Dict.setItem "thumbnails" (.list (thumbs.map dropData)) md)
    else none
  | _ => none

/-- What `prune_storage` does with one file. -/
def pruneFile (isfile : Text → Bool) (s : MetadataStorage F) (fname : String) :
    MetadataStorage F :=
  if isfile (join env.gcPath fname.toList) then
    match (s.metadata.get fname).bind pruneThumbs with
    | none => s
    | some md => s.insert env fname md
  else { s with metadata := s.metadata.erase fname }

/-- `prune_storage` -/
def pruneStorage (isfile : Text → Bool) (s : MetadataStorage F) : MetadataStorage F :=
  if env.gcPath = [] then s
  else
    let delKeys := s.metadata.keys.filter fun fname => !isfile (join env.gcPath fname.toList)
    let s := s.metadata.keys.foldl (pruneFile env isfile) s
    if delKeys = [] then s else s.issue env (.deleteBatch delKeys)

/-! ## Scans -/

/-- `_has_valid_data`, which raises an exception where a record lacks a field. -/
def hasValidData (fname : String) (info : PathInfo F) (s : MetadataStorage F) : Option Bool :=
  if info.ufpPath.isSome then some false
  else
    let mdata := (s.metadata.get fname).getD [("size", .str ""), ("modified", .int 0)]
    match mdata.lookup "size" with
    | none => none
    | some size =>
      if env.sameValue size (info.size.getD .null) then
        (mdata.lookup "modified").map fun modified =>
          env.sameValue modified (info.modified.getD .null)
      else some false

/-- `parse_metadata` -/
def parseMetadata (fname : String) (info : PathInfo F) (s : MetadataStorage F) :
    MetadataStorage F :=
  if fname ∈ s.pendingRequests.keys then s
  else if (splitext fname.toList).2 ∉ validGcodeExts then s
  else
    match s.hasValidData env fname info with
    | none | some true => s
    | some false =>
      let s := { s with pendingRequests := s.pendingRequests.set fname info }
      match s.update with
      | .idle => { s with update := .registered }
      | .registered | .extracting _ _ | .raised => s

/-- The head of the loop of `_process_metadata_update`.  A request whose data is valid by now
stays in front of the others: the loop never ends then, and nothing else happens any more. -/
def nextRequest (s : MetadataStorage F) : Option (MetadataStorage F) :=
  match s.pendingRequests.items with
  | [] => some { s with update := .idle }
  | (fname, info) :: _ =>
    match s.hasValidData env fname info with
    | none => some { s with update := .raised }
    | some true => none
    | some false => some { s with update := .extracting fname info }

/-- What is recorded of a file that the script could not read. -/
def unread (info : PathInfo F) : Metadata F :=
  [("size", info.size.getD (.int 0)), ("modified", info.modified.getD (.int 0)),
    ("print_start_time", .null), ("job_id", .null)]

/-- What is recorded at the end of the attempts to extract the metadata of `fname`: what the
script prints, under the name that it prints, unless it prints no metadata. -/
def extractedRecord (fname : String) (info : PathInfo F) :
    Option (String × Metadata F) → Option (String × Metadata F)
  | some (path, item :: items) =>
    some (path, Dict.setItem "job_id" .null
      (Dict.setItem "print_start_time" .null (item :: items)))
  | some (_, []) | none => if info.ufpPath.isSome then none else some (fname, unread info)

/-- `_process_metadata_update` after the script. -/
def finishExtraction (result : Option (String × Metadata F)) (s : MetadataStorage F) :
    Option (MetadataStorage F) :=
  match s.update with
  | .extracting fname info =>
    let s := match extractedRecord fname info result with
      | none => s
      | some (key, metadata) => s.insert env key metadata
    { s with pendingRequests := s.pendingRequests.erase fname }.nextRequest env
  | .idle | .registered | .raised => none

/-! ## Steps -/

/-- The calls, and what the event loop runs. -/
inductive Event (F : Type)
  | parseMetadata (fname : String) (info : PathInfo F)
  | processUpdate
  | extracted (result : Option (String × Metadata F))
  | insert (key : String) (value : Metadata F)
  | removeFile (fname : String)
  | removeDirectory (dirName : Text)
  | moveFile (prevFname newFname : String)
  | moveDirectory (prevDir newDir : Text)
  | prune (isfile : Text → Bool)
  | startPop

def step (s : MetadataStorage F) : Event F → Option (MetadataStorage F)
  | .parseMetadata fname info => some (s.parseMetadata env fname info)
  | .processUpdate =>
    match s.update with
    | .registered => s.nextRequest env
    | .idle | .extracting _ _ | .raised => none
  | .extracted result => s.finishExtraction env result
  | .insert key value => some (s.insert env key value)
  | .removeFile fname => some (s.removeFileMetadata fname)
  | .removeDirectory dirName => some (s.removeDirectoryMetadata env dirName)
  | .moveFile prevFname newFname => some (s.moveFileMetadata env prevFname newFname)
  | .moveDirectory prevDir newDir => some (s.moveDirectoryMetadata env prevDir newDir)
  | .prune isfile => some (s.pruneStorage env isfile)
  | .startPop => s.startPop env

end MetadataStorage

end FlsunT1.Moonraker
