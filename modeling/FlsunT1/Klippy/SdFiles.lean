/-
  Klippy/SdFiles.lean --- the files of the virtual sd card (klippy/extras/virtual_sdcard.py).

  `SDCARD_PRINT_FILE` looks a name up among the files with the extensions of g-code, first as it
  is and then without regard to case, and opens the file.
-/
import Mathlib.Data.Char
import Mathlib.Data.List.Lex
import FlsunT1.Klippy.ExtendedParams
import FlsunT1.Library.PosixPath

set_option autoImplicit false

namespace FlsunT1.Klippy

open Library PosixPath

/-- `VALID_GCODE_EXTS` -/
def validGcodeExts : List Text := ["gcode".toList, ['g'], "gco".toList]

/-- The directory of the sd card, and what `os.walk` finds below it, relative to it. -/
structure SdCard where
  sdcardDirname : Text
  files : List Text
  dirname_ne_nil : sdcardDirname ≠ []
  dirname_open : sdcardDirname.getLast? ≠ some '/'
  relative : ∀ r ∈ files, r ≠ [] ∧ r.head? ≠ some '/'

namespace SdCard

/-- What follows the last dot of a name, or the name. -/
def fileExt (r : Text) : Text := tailOf '.' (basename r)

/-- `get_file_list(check_subdirs=True)`, without the sizes. -/
def getFileList (cases : CaseMap) (sd : SdCard) : List Text :=
  ((sd.files.filter fun r => decide (fileExt r ∈ validGcodeExts)).map fun r =>
    (join sd.sdcardDirname r).drop (sd.sdcardDirname.length + 1)).mergeSort
      fun f g => decide (cases.lower f ≤ cases.lower g)

/-- The name in the list that `_load_file` opens. -/
def findFile (cases : CaseMap) (sd : SdCard) (filename : Text) : Option Text :=
  let flist := sd.getFileList cases
  if filename ∈ flist then some filename
  else flist.reverse.find? fun fname => decide (cases.lower fname = cases.lower filename)

/-- `get_file_list()`, without the sizes. -/
def topFileList (cases : CaseMap) (sd : SdCard) : List Text :=
  (sd.files.filter fun r => decide ('/' ∉ r ∧ r.head? ≠ some '.')).mergeSort
    fun f g => decide (cases.lower f ≤ cases.lower g)

/-- The name in that list that `_load_file` opens. -/
def findTopFile (cases : CaseMap) (sd : SdCard) (filename : Text) : Option Text :=
  let flist := sd.topFileList cases
  if filename ∈ flist then some filename
  else flist.reverse.find? fun fname => decide (cases.lower fname = cases.lower filename)

end SdCard

/-- What a line makes klippy do: open a file to print it, run a script on the way, or run the
handler of another command. -/
inductive SdAction
  | openFile (path : Text)
  | runScript (script : String)
  | command (cmd : String) (commandline : String)
  deriving DecidableEq

/-- Why a line raises an error. -/
inductive SdError
  | malformed (commandline : String)
  | busy
  | missingFilename
  /-- An exception that is no error of a command. -/
  | internal
  | unableToOpen
  deriving DecidableEq

/-- Loading a file and starting to print it. -/
def loadedFile (path : Text) : List SdAction := [.openFile path, .runScript "START_PRINT"]

/-- `cmd_SDCARD_PRINT_FILE`, with the loading of the file.  `busy` says that another print is
under way. -/
def cmdSdcardPrintFile (cases : CaseMap) (sd : SdCard) (busy : Bool)
    (params : List (Text × Text)) : Except SdError (List SdAction) :=
  if busy then .error .busy
  else
    match extendedParam "FILENAME".toList params with
    | none => .error .missingFilename
    | some [] => .error .internal
    | some (c :: cs) =>
      match sd.findFile cases (if c = '/' then cs else c :: cs) with
      | none => .error .unableToOpen
      | some fname => .ok (loadedFile (join sd.sdcardDirname fname))

/-- A line of a script in `_process_commands`. -/
def runSdLine (cases : CaseMap) (sd : SdCard) (busy : Bool) (line : Text) :
    Except SdError (List SdAction) :=
  let (cmd, gcmd) := processLine (String.ofList line)
  if cmd = "SDCARD_PRINT_FILE" then
    match getExtendedParams cases gcmd.commandline.toList with
    | none => .error (.malformed gcmd.commandline)
    | some params => cmdSdcardPrintFile cases sd busy params
  else if cmd = "" then .ok []
  else .ok [.command cmd gcmd.commandline]

/-- `run_script`, up to the first error. -/
def runSdScript (cases : CaseMap) (sd : SdCard) (busy : Bool) (script : Text) :
    Except SdError (List SdAction) :=
  ((script.splitOn '\n').mapM (runSdLine cases sd busy)).map List.flatten

/-! ## Finding a file -/

namespace SdCard

variable {cases : CaseMap} {sd : SdCard}

theorem join_relative {r : Text} (h : r.head? ≠ some '/') :
    join sd.sdcardDirname r = sd.sdcardDirname ++ '/' :: r := by
  rw [join, if_neg h, if_neg (not_or.mpr ⟨sd.dirname_ne_nil, sd.dirname_open⟩)]

theorem mem_getFileList {fname : Text} :
    fname ∈ sd.getFileList cases ↔ fname ∈ sd.files ∧ fileExt fname ∈ validGcodeExts := by
  have hpath {r : Text} (hr : r ∈ sd.files) :
      (join sd.sdcardDirname r).drop (sd.sdcardDirname.length + 1) = r := by
    rw [join_relative (sd.relative r hr).2, List.drop_append, List.drop_of_length_le (by omega),
      List.nil_append, Nat.add_sub_cancel_left, List.drop_succ_cons, List.drop_zero]
  rw [getFileList, List.mem_mergeSort, List.mem_map]
  constructor
  · rintro ⟨r, hr, rfl⟩
    obtain ⟨hmem, hext⟩ := List.mem_filter.mp hr
    rw [hpath hmem]
    exact ⟨hmem, of_decide_eq_true hext⟩
  · rintro ⟨hmem, hext⟩
    exact ⟨fname, List.mem_filter.mpr ⟨hmem, decide_eq_true hext⟩, hpath hmem⟩

theorem findFile_spec {filename fname : Text} (h : sd.findFile cases filename = some fname) :
    fname ∈ sd.getFileList cases ∧ cases.lower fname = cases.lower filename := by
  rw [findFile] at h
  split at h
  · rename_i hmem
    obtain rfl := Option.some.inj h
    exact ⟨hmem, rfl⟩
  · have hlower := List.find?_some h
    exact ⟨List.mem_reverse.mp (List.mem_of_find?_eq_some h), of_decide_eq_true hlower⟩

theorem findFile_of_mem {fname : Text} (h : fname ∈ sd.getFileList cases) :
    sd.findFile cases fname = some fname := if_pos h

theorem join_inj {r r' : Text} (hr : r.head? ≠ some '/') (hr' : r'.head? ≠ some '/')
    (h : join sd.sdcardDirname r = join sd.sdcardDirname r') : r = r' := by
  rw [join_relative hr, join_relative hr'] at h
  exact (List.cons.inj (List.append_cancel_left h)).2

end SdCard

end FlsunT1.Klippy
