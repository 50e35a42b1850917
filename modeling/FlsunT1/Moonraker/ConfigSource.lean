/-
  Moonraker/ConfigSource.lean --- the configuration files (moonraker/confighelper.py).

  `FileSourceWrapper` keeps the texts of the files, the files of every section and of
  every option, and the parser into which the texts were read.  A second reading of the
  lines, by `_find_section_info`, tells the edits where an option stands.
-/
import Mathlib.Data.Finset.Insert
import FlsunT1.Library.ConfigParser
import FlsunT1.Library.Instances

set_option autoImplicit false

namespace FlsunT1.Moonraker

open Library Text

/-- `configparser.ConfigParser(interpolation=None)` -/
def parserFormat (lower : Lowercase) : ConfigFormat :=
  { lower with strict := true, inlinePrefixes := [] }

/-! ## The lines of a file -/

/-- `" +[#;]"`, at the front of the text. -/
def beginsInlineComment (t : Text) : Bool :=
  t.head? == some ' ' && isComment (t.dropWhile (· == ' '))

/-- The line up to an inline comment. -/
def cutComment : Text → Text
  | [] => []
  | c :: t => if beginsInlineComment (c :: t) then [] else c :: cutComment t

/-- `re.sub(r" \\(#|;)", r" \1", line)` -/
def unescape : Text → Text
  | ' ' :: '\\' :: c :: t =>
    if c = '#' ∨ c = ';' then ' ' :: c :: unescape t else ' ' :: unescape ('\\' :: c :: t)
  | c :: t => c :: unescape t
  | [] => []

/-- A line with nothing on it but white space or a comment. -/
def isBlank (line : Text) : Bool := lstrip line == [] || isComment (lstrip line)

/-- `section_r`: the name goes up to the first bracket. -/
def sectionMatch (line : Text) : Option Text :=
  match lstrip line with
  | '[' :: t =>
    let name := t.takeWhile (· ≠ ']')
    if name ≠ [] ∧ name.length < t.length then some name else none
  | _ => none

/-- `re.split(r"[:=]", line, 1)[0].strip()` -/
def optionName (line : Text) : Text := strip (line.takeWhile (!isDelimiter ·))

/-! ## The wrapper -/

/-- What `backup_source` keeps. -/
structure Backup where
  rawData : List Text
  sectionMap : Dict Text (List Nat)
  optionMap : Dict (Text × Text) (List Nat)
  config : Text
  deriving DecidableEq

/-- `FileSourceWrapper` -/
structure Source (Path : Type) where
  files : List Path
  rawConfigData : List Text
  updatesPending : Finset Nat
  fileSectionMap : Dict Text (List Nat)
  fileOptionMap : Dict (Text × Text) (List Nat)
  config : Config
  backup : Option Backup
  deriving DecidableEq

variable {Path : Type}

def Source.init : Source Path := ⟨[], [], ∅, .empty, .empty, .empty, none⟩

/-! ## Reading the files -/

/-- The file system: `glob` has the files of a directive in order, for a path from the root
and for one next to a file; what raises gives nothing. -/
structure FileSystem (Path : Type) where
  stat : Path → Option (Nat × Nat)
  readText : Path → Option Text
  globRoot : Text → Option (List Path)
  glob : Path → Text → Option (List Path)
  isFile : Path → Bool
  readable : Path → Bool

inductive ConfigError (Path : Type)
  | recursiveInclude (path : Path)
  | invalidInclude (directive : Text)
  | noMatchingFiles (directive : Text)
  | duplicateSection (name : Text) (path : Path)
  | duplicateOption (option name : Text) (path : Path)
  | notFound (path : Path)
  | noPermission (path : Path)
  | errorReading (path : Path)
  deriving DecidableEq

/-- The variables that `_parse_file` shares with the calls for included files. -/
structure Parsing (Path : Type) where
  source : Source Path
  visited : List (Nat × Nat)

/-- The variables of one call of `_parse_file`; without an option there is no indentation. -/
structure Scan where
  buffer : List Text
  lastSection : Text
  optIndent : Option Nat

/-- What becomes of an exception that is no `ConfigError`. -/
def FileSystem.asConfigError (fs : FileSystem Path) (path : Path) : ConfigError Path :=
  if !fs.isFile path then .notFound path
  else if !fs.readable path then .noPermission path
  else .errorReading path

/-- `_write_buffer` -/
def writeBuffer (fs : FileSystem Path) (lower : Lowercase) (path : Path) (buffer : List Text)
    (w : Source Path) : Except (ConfigError Path) (Source Path) :=
  if buffer = [] then .ok w
  else
    match Config.readString (parserFormat lower) w.config (unlines buffer) with
    | (config, none) => .ok { w with config }
    | (_, some _) => .error (fs.asConfigError path)

/-- The files of an include directive. -/
def includedFiles (fs : FileSystem Path) (path : Path) (directive : Text) :
    Except (ConfigError Path) (List Path) :=
  match strip (directive.drop 8) with
  | [] => .error (.invalidInclude directive)
  | c :: incPath =>
    match if c = '/' then fs.globRoot (c :: incPath) else fs.glob path (c :: incPath) with
    | none => .error (fs.asConfigError path)
    | some [] => .error (.noMatchingFiles directive)
    | some paths => .ok paths

/-- The body of the loop of `_parse_file`; `parseFile` is the call for an included file. -/
def parseLine (fs : FileSystem Path) (lower : Lowercase)
    (parseFile : Path → Parsing Path → Except (ConfigError Path) (Parsing Path))
    (path : Path) (fileIndex : Nat) (p : Parsing Path × Scan) (line : Text) :
    Except (ConfigError Path) (Parsing Path × Scan) :=
  let (⟨w, visited⟩, scan) := p
  if isBlank line then .ok p
  else
    let line := unescape (cutComment (expandTabs 4 line))
    if scan.optIndent.any (· < indent line) then
      .ok (⟨w, visited⟩, { scan with buffer := scan.buffer ++ [line] })
    else
      match sectionMatch line with
      | some name =>
        if "include ".toList.isPrefixOf name then do
          let paths ← includedFiles fs path name
          let w ← writeBuffer fs lower path scan.buffer w
          let p ← paths.foldlM (fun p path => parseFile path p) ⟨w, visited⟩
          .ok (p, { scan with buffer := [], optIndent := none })
        else
          let indices := (w.fileSectionMap.get name).getD []
          if fileIndex ∈ indices then .error (.duplicateSection name path)
          else
            .ok (⟨{ w with
                fileSectionMap := w.fileSectionMap.set name (fileIndex :: indices) }, visited⟩,
              ⟨scan.buffer ++ [line], name, none⟩)
      | none =>
        let key := (scan.lastSection, optionName line)
        let indices := (w.fileOptionMap.get key).getD []
        if fileIndex ∈ indices then .error (.duplicateOption key.2 key.1 path)
        else
          .ok (⟨{ w with fileOptionMap := w.fileOptionMap.set key (fileIndex :: indices) }, visited⟩,
            ⟨scan.buffer ++ [line], scan.lastSection, some (indent line)⟩)

/-- `_parse_file`; at the depth at which Python gives up, the file cannot be read. -/
def parseFile (fs : FileSystem Path) (lower : Lowercase) :
    Nat → Path → Parsing Path → Except (ConfigError Path) (Parsing Path)
  | 0, path, _ => .error (fs.asConfigError path)
  | depth + 1, path, ⟨w, visited⟩ =>
    match fs.stat path with
    | none => .error (fs.asConfigError path)
    | some stat =>
      if stat ∈ visited then .error (.recursiveInclude path)
      else
        match fs.readText path with
        | none => .error (fs.asConfigError path)
        | some cfgData => do
          let w := { w with files := w.files ++ [path], rawConfigData := w.rawConfigData ++ [cfgData] }
          let (p, scan) ← (splitLines cfgData).foldlM
            (parseLine fs lower (parseFile fs lower depth) path (w.files.length - 1))
            (⟨w, visited ++ [stat]⟩, ⟨[], [], none⟩)
          let w ← writeBuffer fs lower path scan.buffer p.source
          .ok ⟨w, p.visited⟩

/-- `read_file`; `depth` is how deep calls may be nested. -/
def readFile (fs : FileSystem Path) (lower : Lowercase) (depth : Nat) (mainConf : Path)
    (w : Source Path) : Except (ConfigError Path) (Source Path) :=
  (parseFile fs lower depth mainConf
    ⟨{ w with
      files := [], rawConfigData := [], updatesPending := ∅
      fileSectionMap := .empty, fileOptionMap := .empty, config := w.config.clear }, []⟩).map
    Parsing.source

end FlsunT1.Moonraker
