/-
  Moonraker/FileInUse.lean --- requests for files while one is printed
  (moonraker/components/file_manager).

  Before a file is removed, moved or overwritten, its path is compared with that of the file
  that klippy reports, which has the name that was given to klippy and not that of the file it
  opened.  For a directory the comparison is one of texts: the path of the file is to begin
  with that of the directory.
-/
import FlsunT1.Klippy.SdFiles
import FlsunT1.Klippy.VirtualSd
import FlsunT1.Library.Ensures
import FlsunT1.Moonraker.FileRoots
import FlsunT1.Moonraker.MetadataStorage
import FlsunT1.Moonraker.StartPrint

set_option autoImplicit false

namespace FlsunT1.Moonraker

open Library PosixPath Klippy

/-! ## The file manager -/

/-- What is done to the disk. -/
inductive FileAction
  | removed (path : Text)
  | removedTree (path : Text)
  | removedDir (path : Text)
  | moved (source dest : Text)
  | copiedTree (dest : Text)
  | written (path : Text)
  | kept (path : Text)
  deriving DecidableEq

/-- What the file manager knows: the disk and the roots, the paths that are reserved for reading
or for writing, and the last print stats of klippy. -/
structure FileManager where
  disk : Disk
  roots : Roots
  lower : Lowercase
  reserved : Text → Bool → Bool
  lastFilename : Text
  lastState : PrintState
  isReady : Bool

/-- Why a request is refused. -/
inductive FileError
  | path (e : PathError)
  | reserved
  | readOnly (root : Text)
  | rootDirectory
  | notFound
  | isDirectory
  | noItems
  /-- `File currently in use`, or `File is loaded` -/
  | inUse
  /-- What the operation of the disk raises. -/
  | failed
  deriving DecidableEq

/-- The requests that write. -/
inductive FileRequest
  | deleteFile (path : Text)
  | deleteDirectory (directory : Text) (force : Bool)
  | move (source destination : Text)
  | copy (source destination : Text)
  | zip (dest : Text) (items : List Text)
  | upload (args : UploadArgs)

/-- An error, unless a condition holds. -/
def require (condition : Bool) (e : FileError) : Except FileError Unit :=
  if condition then .ok () else .error e

namespace FileManager

variable (m : FileManager)

/-- `os.path.exists` -/
def pathExists (path : Text) : Bool := m.disk.isdir path || m.disk.isfile path

/-- `_handle_operation_check` -/
def handleOperationCheck (requestedPath : Text) : Except FileError Bool :=
  match m.roots.filePaths.get "gcodes".toList with
  | none => .ok true
  | some gcPath =>
    if gcPath.isPrefixOf requestedPath then
      let fullPath := join gcPath m.lastFilename
      let isPrinting := m.isReady && (m.lastState == .printing || m.lastState == .paused)
      if m.lastFilename ≠ [] ∧ isPrinting = true then
        if m.disk.isdir requestedPath then
          if requestedPath.isPrefixOf fullPath then .error .inUse else .ok (!isPrinting)
        else if fullPath = requestedPath then .error .inUse
        else .ok (!isPrinting)
      else .ok (!isPrinting)
    else .ok true

/-- `_convert_request_path` -/
def convertPath (request : Text) : Except FileError (Text × Text) :=
  (convertRequestPath m.disk m.roots request).mapError .path

/-- `check_reserved_path` -/
def checkReservedPath (path : Text) (needWrite : Bool) : Except FileError Unit :=
  require (!m.reserved path needWrite) .reserved

/-- `root in self.full_access_roots` -/
def fullAccess (root : Text) : Bool := decide (root ∈ m.roots.fullAccessRoots)

/-! ## Operations of the disk -/

/-- `shutil.move` -/
def shutilMove (source dest : Text) : Except FileError FileAction :=
  if components source = components dest then .ok (.kept source)
  else if m.disk.isdir source ∧ Below source dest then .error .failed
  else if m.disk.isdir dest then
    let realDest := join dest (basename source)
    if m.pathExists realDest then .error .failed else .ok (.moved source realDest)
  else .ok (.moved source dest)

/-- `shutil.move`, of a file outside of the roots. -/
def shutilMoveIn (name dest : Text) : Except FileError FileAction :=
  if m.disk.isdir dest then
    let realDest := join dest name
    if m.pathExists realDest then .error .failed else .ok (.written realDest)
  else .ok (.written dest)

/-- `shutil.copy2` or `shutil.copytree` -/
def shutilCopy (source dest : Text) : Except FileError FileAction :=
  if m.disk.isdir source then
    if m.pathExists dest then .error .failed else .ok (.copiedTree dest)
  else
    let realDest := if m.disk.isdir dest then join dest (basename source) else dest
    let realDest := if m.disk.islink realDest then m.disk.realpath realDest else realDest
    if components realDest = components source then .error .failed else .ok (.written realDest)

/-! ## The requests -/

/-- What `delete_file` does before it looks at what is printed. -/
def deleteFilePath (path : Text) : Except FileError Text := do
  let (root, fullPath) ← m.convertPath path
  m.checkReservedPath fullPath true
  require (m.fullAccess root) (.readOnly root)
  require (m.disk.isfile fullPath) .notFound
  return fullPath

/-- `delete_file` -/
def deleteFile (path : Text) : Except FileError FileAction := do
  let fullPath ← m.deleteFilePath path
  let _ ← m.handleOperationCheck fullPath
  return .removed fullPath

/-- What `_handle_directory_request` does for `DELETE` before it looks at what is printed. -/
def deleteDirectoryPath (directory : Text) : Except FileError Text := do
  let (root, dirPath) ← m.convertPath directory
  m.checkReservedPath dirPath true
  require (m.fullAccess root) (.readOnly root)
  require (decide ((directory.dropWhile (· = '/')).rdropWhile (· = '/') ≠ root)) .rootDirectory
  require (m.disk.isdir dirPath) .notFound
  return dirPath

/-- `_handle_directory_request`, for `DELETE` -/
def deleteDirectory (directory : Text) (force : Bool) : Except FileError FileAction := do
  let dirPath ← m.deleteDirectoryPath directory
  if force then
    let _ ← m.handleOperationCheck dirPath
    return .removedTree dirPath
  else return .removedDir dirPath

/-- What `_handle_file_move_copy` does before it looks at the destination. -/
def moveCopyPaths (source destination : Text) : Except FileError (Text × Text × Text) := do
  let (sourceRoot, sourcePath) ← m.convertPath source
  let (destRoot, destPath) ← m.convertPath destination
  require (m.fullAccess destRoot) (.readOnly destRoot)
  m.checkReservedPath sourcePath false
  m.checkReservedPath destPath true
  require (m.pathExists sourcePath) .notFound
  return (sourceRoot, sourcePath, destPath)

/-- The destination is not to be in use. -/
def checkDestination (destPath : Text) : Except FileError Unit :=
  if m.pathExists destPath then (m.handleOperationCheck destPath).map fun _ => () else .ok ()

/-- `_handle_file_move_copy`, at `/server/files/move` -/
def moveFile (source destination : Text) : Except FileError FileAction := do
  let (sourceRoot, sourcePath, destPath) ← m.moveCopyPaths source destination
  m.checkDestination destPath
  require (m.fullAccess sourceRoot) (.readOnly sourceRoot)
  let _ ← m.handleOperationCheck sourcePath
  m.shutilMove sourcePath destPath

/-- `_handle_file_move_copy`, at `/server/files/copy` -/
def copyFile (source destination : Text) : Except FileError FileAction := do
  let (_, sourcePath, destPath) ← m.moveCopyPaths source destination
  m.checkDestination destPath
  m.shutilCopy sourcePath destPath

/-- An item of an archive. -/
def zipItem (item : Text) : Except FileError Unit := do
  let (_, itemPath) ← m.convertPath item
  m.checkReservedPath itemPath false
  require (m.pathExists itemPath) .notFound

/-- What `_handle_zip_files` does before it writes the archive. -/
def zipPath (dest : Text) (items : List Text) : Except FileError Text := do
  let (destRoot, destPath) ← m.convertPath dest
  require (m.fullAccess destRoot) (.readOnly destRoot)
  m.checkReservedPath destPath true
  require (!m.disk.isdir destPath) .isDirectory
  require (decide (items ≠ [])) .noItems
  items.forM m.zipItem
  return destPath

/-- `_handle_zip_files` -/
def zipFiles (dest : Text) (items : List Text) : Except FileError FileAction := do
  let destPath ← m.zipPath dest items
  m.shutilMoveIn (basename destPath) destPath

/-- What `finalize_upload` does before it looks at the file. -/
def uploadInfo (args : UploadArgs) : Except FileError UploadInfo := do
  let info ← (parseUploadArgs m.disk m.lower m.roots args).mapError .path
  m.checkReservedPath info.destPath true
  require (m.fullAccess info.root) (.readOnly info.root)
  return info

/-- The upload is one of g-code. -/
def isGcodeUpload (info : UploadInfo) : Bool :=
  decide (info.root = "gcodes".toList ∧ info.ext ∈ validGcodeExts)

/-- `finalize_upload` -/
def finalizeUpload (args : UploadArgs) : Except FileError FileAction := do
  let info ← m.uploadInfo args
  if isGcodeUpload info then
    let _ ← m.handleOperationCheck info.destPath
  m.shutilMoveIn (basename info.tmpFilePath)
    (if info.isLink then m.disk.realpath info.destPath else info.destPath)

/-- The handlers. -/
def handle : FileRequest → Except FileError FileAction
  | .deleteFile path => m.deleteFile path
  | .deleteDirectory directory force => m.deleteDirectory directory force
  | .move source destination => m.moveFile source destination
  | .copy source destination => m.copyFile source destination
  | .zip dest items => m.zipFiles dest items
  | .upload args => m.finalizeUpload args

end FileManager

/-! ## The file that is printed -/

/-- A way to load a file: by `SDCARD_PRINT_FILE`, or by `M23`, which has the files of the directory
itself. -/
inductive LoadedBy (cases : CaseMap) (sd : SdCard) (filename fname : Text) : Prop
  | sdcardPrintFile (h : sd.findFile cases filename = some fname)
  | m23 (h : sd.findTopFile cases filename = some fname)

/-- A print of the file `fname`, which was loaded by the name that the print stats report. -/
structure Printing (m : FileManager) where
  gcPath : Text
  cases : CaseMap
  sd : SdCard
  fname : Text
  gcPath_get : m.roots.filePaths.get "gcodes".toList = some gcPath
  sdcardDirname : sd.sdcardDirname = gcPath
  loadedBy : LoadedBy cases sd m.lastFilename fname
  filename_ne_nil : m.lastFilename ≠ []
  active : m.lastState = .printing ∨ m.lastState = .paused

/-- What is done removes, moves or overwrites the open file. -/
def FileAction.Changes (opened : Text) : FileAction → Prop
  | .removed path | .written path => components path = components opened
  | .removedTree path => Below path opened
  | .moved source dest => Below source opened ∨ components dest = components opened
  | .removedDir _ | .copiedTree _ | .kept _ => False

/-- What is done leaves the open file alone, and that a file is in use is said only if the request
is concerned. -/
def Spares (opened : Text) (concerned : Prop) (r : Except FileError FileAction) : Prop :=
  (∀ action, r = .ok action → ¬action.Changes opened) ∧ (r = .error .inUse → concerned)

namespace Printing

variable {m : FileManager} (p : Printing m)

/-- The file that is open. -/
def opened : Text := join p.gcPath p.fname

/-- The file that klippy reports. -/
def reported : Text := join p.gcPath m.lastFilename

/-- The path of a request is the open file or a directory above it. -/
def Concerns (request : Text) : Prop :=
  ∃ root path, m.convertPath request = .ok (root, path) ∧ Below path p.opened

/-- A request writes to the open file or to a directory above it. -/
def RequestConcerns : FileRequest → Prop
  | .deleteFile path => p.Concerns path
  | .deleteDirectory directory _ => p.Concerns directory
  | .move source destination => p.Concerns source ∨ p.Concerns destination
  | .copy _ destination => p.Concerns destination
  | .zip dest _ => p.Concerns dest
  | .upload args => ∃ info, parseUploadArgs m.disk m.lower m.roots args = .ok info ∧
      Below info.destPath p.opened

/-- The open file is protected from a request: what is done does not change it, and the request is
refused for its sake only if it is concerned. -/
def Protects (request : FileRequest) : Prop :=
  Spares p.opened (p.RequestConcerns request) (m.handle request)

/-- What is tested of a path: it begins with the path of the root, and it is the file that is
reported, or the path of that file begins with it if it is a directory. -/
def Tested (path : Text) : Prop :=
  m.isReady = true ∧ p.gcPath.isPrefixOf path = true ∧
    if m.disk.isdir path then path.isPrefixOf p.reported = true else p.reported = path

/-- The test is made and is right: it finds the open file where the request would change it, and
nothing else. -/
def Condition : FileRequest → Prop
  | .deleteFile path => ∀ fullPath, m.deleteFilePath path = .ok fullPath →
      (components fullPath = components p.opened → p.Tested fullPath) ∧
        (p.Tested fullPath → Below fullPath p.opened)
  | .deleteDirectory directory force => ∀ dirPath, m.deleteDirectoryPath directory = .ok dirPath →
      force = true → (Below dirPath p.opened ↔ p.Tested dirPath)
  | .move source destination => ∀ root sourcePath destPath,
      m.moveCopyPaths source destination = .ok (root, sourcePath, destPath) →
        (m.fullAccess root = true →
          (∃ action, m.shutilMove sourcePath destPath = .ok action ∧ action.Changes p.opened) →
            m.pathExists destPath = true ∧ p.Tested destPath ∨ p.Tested sourcePath) ∧
        (m.pathExists destPath = true ∧ p.Tested destPath ∨
            m.fullAccess root = true ∧ p.Tested sourcePath →
          Below sourcePath p.opened ∨ Below destPath p.opened)
  | .copy source destination => ∀ root sourcePath destPath,
      m.moveCopyPaths source destination = .ok (root, sourcePath, destPath) →
        ((∃ action, m.shutilCopy sourcePath destPath = .ok action ∧ action.Changes p.opened) →
            m.pathExists destPath = true ∧ p.Tested destPath) ∧
        (m.pathExists destPath = true ∧ p.Tested destPath → Below destPath p.opened)
  | .zip dest items => ∀ destPath, m.zipPath dest items = .ok destPath →
      components destPath ≠ components p.opened
  | .upload args => ∀ info, m.uploadInfo args = .ok info →
        ((∃ action, m.shutilMoveIn (basename info.tmpFilePath)
            (if info.isLink then m.disk.realpath info.destPath else info.destPath) = .ok action ∧
              action.Changes p.opened) →
          FileManager.isGcodeUpload info = true ∧ p.Tested info.destPath) ∧
        (FileManager.isGcodeUpload info = true ∧ p.Tested info.destPath →
          Below info.destPath p.opened)

end Printing

/-! ## Errors of the steps -/

theorem bind_eq_error {ε α β : Type} {r : Except ε α} {f : α → Except ε β} {e : ε} :
    (r >>= f) = .error e ↔ r = .error e ∨ ∃ a, r = .ok a ∧ f a = .error e := by
  cases r with
  | error e' => simp [bind, Except.bind]
  | ok a => simp [bind, Except.bind]

/-- A step that does not look at what is printed. -/
def Unaware {α : Type} (r : Except FileError α) : Prop := r ≠ .error .inUse

theorem Unaware.bind {α β : Type} {r : Except FileError α} {f : α → Except FileError β}
    (hr : Unaware r) (hf : ∀ a, r = .ok a → Unaware (f a)) : Unaware (r >>= f) := by
  intro h
  rcases bind_eq_error.mp h with h | ⟨a, ha, h⟩
  · exact hr h
  · exact hf a ha h

theorem unaware_ok {α : Type} (a : α) : Unaware (.ok a : Except FileError α) := fun h => by cases h

theorem unaware_error {α : Type} {e : FileError} (he : e ≠ .inUse) :
    Unaware (.error e : Except FileError α) := fun h => he (Except.error.inj h)

theorem Unaware.ite {α : Type} {c : Prop} [Decidable c] {r r' : Except FileError α}
    (h : Unaware r) (h' : Unaware r') : Unaware (if c then r else r') := by
  split
  · exact h
  · exact h'

theorem unaware_require {condition : Bool} {e : FileError} (he : e ≠ .inUse) :
    Unaware (require condition e) := (unaware_ok ()).ite (unaware_error he)

theorem require_eq_ok {condition : Bool} {e : FileError} {u : Unit} :
    require condition e = .ok u ↔ condition = true := by
  rw [require]
  split
  · rename_i h
    exact iff_of_true rfl h
  · rename_i h
    exact iff_of_false (fun h => by cases h) h

theorem unaware_mapError {α : Type} {r : Except PathError α} : Unaware (r.mapError .path) := by
  cases r with
  | error e => exact fun h => by cases Except.error.inj h
  | ok a => exact unaware_ok a

namespace FileManager

variable {m : FileManager}

theorem unaware_checkReservedPath (path : Text) (needWrite : Bool) :
    Unaware (m.checkReservedPath path needWrite) := unaware_require (by decide)

theorem unaware_deleteFilePath (path : Text) : Unaware (m.deleteFilePath path) :=
  unaware_mapError.bind fun _ _ => (unaware_checkReservedPath _ _).bind fun _ _ =>
    (unaware_require (fun h => by cases h)).bind fun _ _ =>
      (unaware_require (by decide)).bind fun _ _ => unaware_ok _

theorem unaware_deleteDirectoryPath (directory : Text) :
    Unaware (m.deleteDirectoryPath directory) :=
  unaware_mapError.bind fun _ _ => (unaware_checkReservedPath _ _).bind fun _ _ =>
    (unaware_require (fun h => by cases h)).bind fun _ _ =>
      (unaware_require (by decide)).bind fun _ _ =>
        (unaware_require (by decide)).bind fun _ _ => unaware_ok _

theorem unaware_moveCopyPaths (source destination : Text) :
    Unaware (m.moveCopyPaths source destination) :=
  unaware_mapError.bind fun _ _ => unaware_mapError.bind fun _ _ =>
    (unaware_require (fun h => by cases h)).bind fun _ _ =>
      (unaware_checkReservedPath _ _).bind fun _ _ =>
        (unaware_checkReservedPath _ _).bind fun _ _ =>
          (unaware_require (by decide)).bind fun _ _ => unaware_ok _

theorem unaware_zipItem (item : Text) : Unaware (m.zipItem item) :=
  unaware_mapError.bind fun _ _ => (unaware_checkReservedPath _ _).bind fun _ _ =>
    unaware_require (by decide)

theorem unaware_zipItems (items : List Text) : Unaware (items.forM m.zipItem) := by
  induction items with
  | nil => exact unaware_ok _
  | cons item items ih => exact (unaware_zipItem item).bind fun _ _ => ih

theorem unaware_zipPath (dest : Text) (items : List Text) : Unaware (m.zipPath dest items) :=
  unaware_mapError.bind fun _ _ => (unaware_require (fun h => by cases h)).bind fun _ _ =>
    (unaware_checkReservedPath _ _).bind fun _ _ => (unaware_require (by decide)).bind fun _ _ =>
      (unaware_require (by decide)).bind fun _ _ => (unaware_zipItems items).bind fun _ _ =>
        unaware_ok _

theorem unaware_uploadInfo (args : UploadArgs) : Unaware (m.uploadInfo args) :=
  unaware_mapError.bind fun _ _ => (unaware_checkReservedPath _ _).bind fun _ _ =>
    (unaware_require (fun h => by cases h)).bind fun _ _ => unaware_ok _

theorem unaware_shutilMove (source dest : Text) : Unaware (m.shutilMove source dest) := by
  have hfailed : Unaware (.error .failed : Except FileError FileAction) :=
    unaware_error (by decide)
  exact (unaware_ok _).ite (hfailed.ite ((hfailed.ite (unaware_ok _)).ite (unaware_ok _)))

theorem unaware_shutilMoveIn (name dest : Text) : Unaware (m.shutilMoveIn name dest) := by
  have hfailed : Unaware (.error .failed : Except FileError FileAction) :=
    unaware_error (by decide)
  exact (hfailed.ite (unaware_ok _)).ite (unaware_ok _)

theorem unaware_shutilCopy (source dest : Text) : Unaware (m.shutilCopy source dest) := by
  have hfailed : Unaware (.error .failed : Except FileError FileAction) :=
    unaware_error (by decide)
  exact (hfailed.ite (unaware_ok _)).ite (hfailed.ite (unaware_ok _))

end FileManager

namespace Printing

variable {m : FileManager} (p : Printing m)

/-- The check of a path. -/
theorem handleOperationCheck_eq (path : Text) :
    (p.Tested path → m.handleOperationCheck path = .error .inUse) ∧
      (¬p.Tested path → ∃ b, m.handleOperationCheck path = .ok b) := by
  have hactive : (m.lastState == .printing || m.lastState == .paused) = true := by
    rcases p.active with h | h
    · rw [h]
      rfl
    · rw [h]
      rfl
  rw [FileManager.handleOperationCheck, p.gcPath_get, Tested, reported]
  simp only [hactive, Bool.and_true, p.filename_ne_nil, ne_eq, not_false_eq_true, true_and]
  by_cases hready : m.isReady = true
  · by_cases hfront : p.gcPath.isPrefixOf path = true
    · simp only [hready, hfront, if_true, true_and]
      split
      · split
        · rename_i h
          exact ⟨fun _ => rfl, fun hnot => absurd h hnot⟩
        · rename_i h
          exact ⟨fun hyes => absurd hyes h, fun _ => ⟨_, rfl⟩⟩
      · split
        · rename_i h
          exact ⟨fun _ => rfl, fun hnot => absurd h hnot⟩
        · rename_i h
          exact ⟨fun hyes => absurd hyes h, fun _ => ⟨_, rfl⟩⟩
    · rw [if_neg hfront]
      exact ⟨fun h => absurd h.2.1 hfront, fun _ => ⟨_, rfl⟩⟩
  · refine ⟨fun h => absurd h.1 hready, fun _ => ?_⟩
    split
    · exact ⟨_, rfl⟩
    · exact ⟨_, rfl⟩

theorem check_bind_eq {α : Type} (path : Text) (f : Bool → Except FileError α) :
    (p.Tested path → (m.handleOperationCheck path >>= f) = .error .inUse) ∧
      (¬p.Tested path → ∃ b, (m.handleOperationCheck path >>= f) = f b) := by
  obtain ⟨htested, hnot⟩ := p.handleOperationCheck_eq path
  refine ⟨fun h => by rw [htested h]; rfl, fun h => ?_⟩
  obtain ⟨b, hb⟩ := hnot h
  exact ⟨b, by rw [hb]; rfl⟩

theorem check_iff {path : Text} {r : Except FileError FileAction} {opened : Text} {C : Prop} :
    Spares opened C (m.handleOperationCheck path >>= fun _ => r) ↔
      (p.Tested path → C) ∧ (¬p.Tested path → Spares opened C r) := by
  obtain ⟨htested, hnot⟩ := p.check_bind_eq path fun _ => r
  by_cases h : p.Tested path
  · rw [htested h]
    exact ⟨fun hC => ⟨fun _ => hC.2 rfl, fun hnot => absurd h hnot⟩,
      fun hC => ⟨(fun action haction => by cases haction), fun _ => hC.1 h⟩⟩
  · obtain ⟨b, hb⟩ := hnot h
    rw [hb]
    exact ⟨fun hr => ⟨fun htest => absurd htest h, fun _ => hr⟩, fun hC => hC.2 h⟩

theorem checkDestination_iff {destPath : Text} {r : Except FileError FileAction} {opened : Text}
    {C : Prop} :
    Spares opened C (m.checkDestination destPath >>= fun _ => r) ↔
      (m.pathExists destPath = true ∧ p.Tested destPath → C) ∧
        (¬(m.pathExists destPath = true ∧ p.Tested destPath) → Spares opened C r) := by
  rw [FileManager.checkDestination]
  split
  · rename_i hexists
    have hmap : ((m.handleOperationCheck destPath).map (fun _ => ()) >>= fun _ => r) =
        (m.handleOperationCheck destPath >>= fun _ => r) := by
      cases m.handleOperationCheck destPath <;> rfl
    rw [hmap, p.check_iff]
    simp [hexists]
  · rename_i hexists
    exact ⟨fun hr => ⟨fun h => absurd h.1 hexists, fun _ => hr⟩,
      fun hC => hC.2 fun h => hexists h.1⟩

end Printing

/-! ## The requests -/

theorem spares_bind {α : Type} {plan : Except FileError α} (hplan : Unaware plan)
    {f : α → Except FileError FileAction} {opened : Text} {C : Prop} :
    Spares opened C (plan >>= f) ↔ ∀ x, plan = .ok x → Spares opened C (f x) := by
  cases plan with
  | error e =>
    refine ⟨fun _ x hx => ?_, fun _ => ⟨fun action h => ?_, fun h => ?_⟩⟩
    · cases hx
    · cases h
    · rw [Except.error.inj h] at hplan
      exact absurd rfl hplan
  | ok x =>
    constructor
    · rintro h y hy
      rw [← Except.ok.inj hy]
      exact h
    · exact fun h => h x rfl

theorem spares_require {condition : Bool} {e : FileError} (he : e ≠ .inUse)
    {r : Except FileError FileAction} {opened : Text} {C : Prop} :
    Spares opened C (require condition e >>= fun _ => r) ↔
      (condition = true → Spares opened C r) := by
  rw [spares_bind (unaware_require he)]
  exact ⟨fun h hcondition => h () (require_eq_ok.mpr hcondition),
    fun h _ hok => h (require_eq_ok.mp hok)⟩

theorem spares_iff {r : Except FileError FileAction} (hr : Unaware r) {opened : Text} {C : Prop} :
    Spares opened C r ↔ ¬∃ action, r = .ok action ∧ action.Changes opened := by
  rw [Spares, and_iff_left fun h => absurd h hr]
  simp only [not_exists, not_and]

theorem spares_ok {action : FileAction} {opened : Text} {C : Prop} :
    Spares opened C (.ok action) ↔ ¬action.Changes opened := by
  rw [spares_iff (unaware_ok action)]
  refine not_congr ⟨?_, fun h => ⟨action, rfl, h⟩⟩
  rintro ⟨action', haction, hchange⟩
  rw [Except.ok.inj haction]
  exact hchange

theorem one_check {tested concerned changes : Prop} :
    (tested → concerned) ∧ (¬tested → ¬changes) ↔
      (changes → tested) ∧ (tested → concerned) := by
  rw [not_imp_not, and_comm]

theorem two_checks {first second access concerned changes : Prop} :
    (first → concerned) ∧
        (¬first → access → (second → concerned) ∧ (¬second → ¬changes)) ↔
      (access → changes → first ∨ second) ∧ (first ∨ access ∧ second → concerned) := by
  by_cases hfirst : first
  · simp [hfirst]
  · by_cases haccess : access
    · simp only [hfirst, haccess, one_check, false_imp_iff, not_false_eq_true, true_imp_iff,
        true_and, false_or]
    · simp [hfirst, haccess]

namespace Printing

variable {m : FileManager} (p : Printing m)

theorem concerns_iff {request root path : Text} (h : m.convertPath request = .ok (root, path)) :
    p.Concerns request ↔ Below path p.opened := by
  constructor
  · rintro ⟨root', path', h', hbelow⟩
    rw [h] at h'
    rw [(Prod.mk.inj (Except.ok.inj h')).2]
    exact hbelow
  · exact fun hbelow => ⟨root, path, h, hbelow⟩

theorem protects_deleteFile (path : Text) :
    p.Protects (.deleteFile path) ↔ p.Condition (.deleteFile path) := by
  refine (spares_bind (FileManager.unaware_deleteFilePath path)).trans
    (forall_congr' fun fullPath => forall_congr' fun hpath => ?_)
  obtain ⟨⟨root, converted⟩, hconvert, hrest⟩ := bind_eq_ok.mp hpath
  obtain ⟨-, -, hrest⟩ := bind_eq_ok.mp hrest
  obtain ⟨-, -, hrest⟩ := bind_eq_ok.mp hrest
  obtain ⟨-, -, hrest⟩ := bind_eq_ok.mp hrest
  obtain rfl := Except.ok.inj hrest
  have hconcerns : p.RequestConcerns (.deleteFile path) ↔ Below converted p.opened :=
    p.concerns_iff hconvert
  have hchanges : (FileAction.removed converted).Changes p.opened ↔
      components converted = components p.opened := Iff.rfl
  apply p.check_iff.trans
  rw [hconcerns, ← hchanges]
  exact (and_congr_right fun _ => imp_congr_right fun _ => spares_ok).trans one_check

theorem protects_deleteDirectory (directory : Text) (force : Bool) :
    p.Protects (.deleteDirectory directory force) ↔
      p.Condition (.deleteDirectory directory force) := by
  refine (spares_bind (FileManager.unaware_deleteDirectoryPath directory)).trans
    (forall_congr' fun dirPath => forall_congr' fun hpath => ?_)
  obtain ⟨⟨root, converted⟩, hconvert, hrest⟩ := bind_eq_ok.mp hpath
  obtain ⟨-, -, hrest⟩ := bind_eq_ok.mp hrest
  obtain ⟨-, -, hrest⟩ := bind_eq_ok.mp hrest
  obtain ⟨-, -, hrest⟩ := bind_eq_ok.mp hrest
  obtain ⟨-, -, hrest⟩ := bind_eq_ok.mp hrest
  obtain rfl := Except.ok.inj hrest
  have hconcerns : p.RequestConcerns (.deleteDirectory directory force) ↔
      Below converted p.opened := p.concerns_iff hconvert
  cases force with
  | false =>
    -- an empty directory holds no file
    refine iff_of_true ?_ fun h => by cases h
    exact spares_ok.mpr fun h => h
  | true =>
    have hchanges : (FileAction.removedTree converted).Changes p.opened ↔
        Below converted p.opened := Iff.rfl
    apply p.check_iff.trans
    rw [hconcerns, ← hchanges]
    refine ((and_congr_right fun _ => imp_congr_right fun _ => spares_ok).trans one_check).trans ?_
    exact ⟨fun h _ => ⟨h.1, h.2⟩, fun h => ⟨(h rfl).mp, (h rfl).mpr⟩⟩

theorem moveCopyPaths_concerns {source destination root sourcePath destPath : Text}
    (h : m.moveCopyPaths source destination = .ok (root, sourcePath, destPath)) :
    (p.Concerns source ↔ Below sourcePath p.opened) ∧
      (p.Concerns destination ↔ Below destPath p.opened) := by
  obtain ⟨⟨sourceRoot, convertedSource⟩, hsource, hrest⟩ := bind_eq_ok.mp h
  obtain ⟨⟨destRoot, convertedDest⟩, hdest, hrest⟩ := bind_eq_ok.mp hrest
  obtain ⟨-, -, hrest⟩ := bind_eq_ok.mp hrest
  obtain ⟨-, -, hrest⟩ := bind_eq_ok.mp hrest
  obtain ⟨-, -, hrest⟩ := bind_eq_ok.mp hrest
  obtain ⟨-, -, hrest⟩ := bind_eq_ok.mp hrest
  obtain ⟨rfl, hpaths⟩ := Prod.mk.inj (Except.ok.inj hrest)
  obtain ⟨rfl, rfl⟩ := Prod.mk.inj hpaths
  exact ⟨p.concerns_iff hsource, p.concerns_iff hdest⟩

theorem protects_move (source destination : Text) :
    p.Protects (.move source destination) ↔ p.Condition (.move source destination) := by
  refine (spares_bind (FileManager.unaware_moveCopyPaths source destination)).trans ?_
  rw [Prod.forall]
  refine forall_congr' fun root => ?_
  rw [Prod.forall]
  refine forall_congr' fun sourcePath => forall_congr' fun destPath =>
    forall_congr' fun hpaths => ?_
  obtain ⟨hsource, hdest⟩ := p.moveCopyPaths_concerns hpaths
  have hconcerns : p.RequestConcerns (.move source destination) ↔
      Below sourcePath p.opened ∨ Below destPath p.opened := or_congr hsource hdest
  apply p.checkDestination_iff.trans
  rw [spares_require (fun h => by cases h), p.check_iff,
    spares_iff (FileManager.unaware_shutilMove sourcePath destPath), hconcerns]
  exact two_checks

theorem protects_copy (source destination : Text) :
    p.Protects (.copy source destination) ↔ p.Condition (.copy source destination) := by
  refine (spares_bind (FileManager.unaware_moveCopyPaths source destination)).trans ?_
  rw [Prod.forall]
  refine forall_congr' fun root => ?_
  rw [Prod.forall]
  refine forall_congr' fun sourcePath => forall_congr' fun destPath =>
    forall_congr' fun hpaths => ?_
  have hconcerns : p.RequestConcerns (.copy source destination) ↔ Below destPath p.opened :=
    (p.moveCopyPaths_concerns hpaths).2
  apply p.checkDestination_iff.trans
  rw [spares_iff (FileManager.unaware_shutilCopy sourcePath destPath), hconcerns]
  exact one_check

theorem isdir_zipPath {dest destPath : Text} {items : List Text}
    (h : m.zipPath dest items = .ok destPath) : m.disk.isdir destPath = false := by
  obtain ⟨⟨destRoot, converted⟩, -, hrest⟩ := bind_eq_ok.mp h
  obtain ⟨-, -, hrest⟩ := bind_eq_ok.mp hrest
  obtain ⟨-, -, hrest⟩ := bind_eq_ok.mp hrest
  obtain ⟨_, hdir, hrest⟩ := bind_eq_ok.mp hrest
  obtain ⟨-, -, hrest⟩ := bind_eq_ok.mp hrest
  obtain ⟨-, -, hrest⟩ := bind_eq_ok.mp hrest
  obtain rfl := Except.ok.inj hrest
  simpa using require_eq_ok.mp hdir

theorem protects_zip (dest : Text) (items : List Text) :
    p.Protects (.zip dest items) ↔ p.Condition (.zip dest items) := by
  refine (spares_bind (FileManager.unaware_zipPath dest items)).trans
    (forall_congr' fun destPath => forall_congr' fun hpath => ?_)
  have haction : m.shutilMoveIn (basename destPath) destPath = .ok (.written destPath) := by
    rw [FileManager.shutilMoveIn, if_neg (by simp [isdir_zipPath hpath])]
  rw [haction]
  exact spares_ok

theorem protects_upload (args : UploadArgs) :
    p.Protects (.upload args) ↔ p.Condition (.upload args) := by
  refine (spares_bind (FileManager.unaware_uploadInfo args)).trans
    (forall_congr' fun info => forall_congr' fun hinfo => ?_)
  obtain ⟨parsed, hparsed, hrest⟩ := bind_eq_ok.mp hinfo
  obtain ⟨-, -, hrest⟩ := bind_eq_ok.mp hrest
  obtain ⟨-, -, hrest⟩ := bind_eq_ok.mp hrest
  obtain rfl := Except.ok.inj hrest
  have hparse : parseUploadArgs m.disk m.lower m.roots args = .ok parsed := by
    cases hargs : parseUploadArgs m.disk m.lower m.roots args with
    | error e =>
      rw [hargs] at hparsed
      cases hparsed
    | ok info =>
      rw [hargs] at hparsed
      rw [Except.ok.inj hparsed]
  have hconcerns : p.RequestConcerns (.upload args) ↔ Below parsed.destPath p.opened := by
    constructor
    · rintro ⟨info, hok, hbelow⟩
      rw [hparse] at hok
      rw [Except.ok.inj hok]
      exact hbelow
    · exact fun h => ⟨parsed, hparse, h⟩
  have hmove := FileManager.unaware_shutilMoveIn (m := m) (basename parsed.tmpFilePath)
    (if parsed.isLink then m.disk.realpath parsed.destPath else parsed.destPath)
  cases hgcode : FileManager.isGcodeUpload parsed with
  | false =>
    simp only [Bool.false_eq_true, if_false, false_and, false_imp_iff, and_true]
    exact spares_iff hmove
  | true =>
    simp only [if_true, true_and]
    apply p.check_iff.trans
    rw [spares_iff hmove, hconcerns]
    exact one_check

/-- The open file is protected from a request exactly if the test of the paths is made and is
right. -/
theorem protects_iff (request : FileRequest) : p.Protects request ↔ p.Condition request := by
  cases request with
  | deleteFile path => exact p.protects_deleteFile path
  | deleteDirectory directory force => exact p.protects_deleteDirectory directory force
  | move source destination => exact p.protects_move source destination
  | copy source destination => exact p.protects_copy source destination
  | zip dest items => exact p.protects_zip dest items
  | upload args => exact p.protects_upload args

end Printing

/-- A card with one file. -/
def partCard : SdCard where
  sdcardDirname := "/home/pi/gcodes".toList
  files := ["part.gcode".toList]
  dirname_ne_nil := by decide
  dirname_open := by decide
  relative := by decide

/-- The file manager while this file is printed. -/
def partManager : FileManager where
  disk := { Disk.ofDirectories with
    isdir := fun path => decide (path = "/home/pi/gcodes".toList)
    isfile := fun path => decide (path = "/home/pi/gcodes/part.gcode".toList) }
  roots := gcodesRoots
  lower := .ascii
  reserved := fun _ _ => false
  lastFilename := "part.gcode".toList
  lastState := .printing
  isReady := true

def printingPart : Printing partManager where
  gcPath := "/home/pi/gcodes".toList
  cases := lowerCases
  sd := partCard
  fname := "part.gcode".toList
  gcPath_get := by decide
  sdcardDirname := rfl
  loadedBy := .sdcardPrintFile
    (SdCard.findFile_of_mem (SdCard.mem_getFileList.mpr ⟨by decide, by decide⟩))
  filename_ne_nil := by decide
  active := .inl rfl

/-- An archive is written over the file that is printed. -/
theorem zip_over_printed :
    ¬printingPart.Protects (.zip "gcodes/part.gcode".toList ["gcodes/part.gcode".toList]) := by
  intro h
  have hwritten : (partManager.handle (.zip "gcodes/part.gcode".toList
      ["gcodes/part.gcode".toList])).toOption =
        some (.written "/home/pi/gcodes/part.gcode".toList) := by decide
  refine h.1 _ (toOption_eq_some.mp hwritten) ?_
  change components "/home/pi/gcodes/part.gcode".toList = components printingPart.opened
  decide

end FlsunT1.Moonraker
