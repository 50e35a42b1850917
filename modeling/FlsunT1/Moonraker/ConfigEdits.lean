/-
  Moonraker/ConfigEdits.lean --- edits of the configuration (moonraker/confighelper.py).

  An edit changes the lines of a file where `_find_section_info` finds the option or the
  section, tries the new text on a parser of its own, and then brings the maps and the
  parser up to date.
-/
import FlsunT1.Moonraker.ConfigSource

set_option autoImplicit false

namespace FlsunT1.Moonraker

open Library Text

/-! ## Where a section stands -/

structure OptionInfo where
  indent : Nat
  start : Nat
  stop : Nat
  deriving DecidableEq

structure SectionInfo where
  indent : Nat
  start : Nat
  stop : Nat
  options : Dict Text OptionInfo
  deriving DecidableEq

/-- The variables of `_find_section_info`. -/
structure Finding where
  result : Option SectionInfo
  lastOption : Text
  optIndent : Option Nat
  done : Bool

/-- The body of the loop of `_find_section_info`.  The indentation counts the white space
at both ends of the line. -/
def findLine (name : Text) (s : Finding) (numbered : Text × Nat) : Finding :=
  let (line, idx) := numbered
  if s.done || isBlank line then s
  else
    let line := expandTabs 8 line
    let lineIndent := line.length - (strip line).length
    if s.optIndent.any (· < lineIndent) then
      { s with
        result := s.result.map fun r =>
          { r with
            stop := idx + 1
            options :=
              if s.lastOption = [] then r.options
              else
                match r.options.get s.lastOption with
                | some o => r.options.set s.lastOption { o with stop := idx + 1 }
                | none => r.options } }
    else
      match sectionMatch line, s.result with
      | some _, some _ => { s with optIndent := none, done := true }
      | some cursec, none =>
        { s with
          optIndent := none
          result := if name = cursec then some ⟨lineIndent, idx, idx + 1, .empty⟩ else none }
      | none, none => { s with optIndent := some lineIndent }
      | none, some r =>
        { s with
          optIndent := some lineIndent
          lastOption := optionName line
          result := some { r with
            stop := idx + 1
            options := r.options.set (optionName line) ⟨lineIndent, idx, idx + 1⟩ } }

/-- `_find_section_info`, or nothing where there is no such section. -/
def findSectionInfo (name : Text) (fileData : List Text) : Option SectionInfo :=
  (fileData.zipIdx.foldl (findLine name) ⟨none, [], none, false⟩).result

/-! ## The edits -/

inductive EditError
  | notFileBacked
  | setOption (option name : Text) (fileIdx : Nat)
  | removeOption (option name : Text) (fileIdx : Nat)
  | addSection (name : Text)
  | removeSection (name : Text)
  | parser (e : CallError)
  deriving DecidableEq

/-- What an edit leaves behind, and what it raises. -/
abbrev Edited (Path : Type) := Source Path × Option EditError

variable {Path : Type}

/-- The parser for a text on its own, if the text can be read. -/
def testParser (lower : Lowercase) (text : Text) : Option Config :=
  match Config.readString (parserFormat lower) Sections.empty text with
  | (config, none) => some config
  | (_, some _) => none

/-- The lines of an option that is set. -/
def optionText (option value : Text) : List Text :=
  if '\n' ∈ value then
    (option ++ [':']) :: (value.splitOn '\n').map ("  ".toList ++ ·)
  else [option ++ ": ".toList ++ value]

/-- The lines of a file with an option set in them. -/
def setLines (name option value : Text) (buf : List Text) : List Text :=
  let new := optionText option value
  match findSectionInfo name buf with
  | some info =>
    let (indent, start, stop) :=
      match info.options.get option, info.options.items.getLast? with
      | some o, _ => (o.indent, o.start, o.stop)
      | none, some (_, last) => (last.indent, info.stop, info.stop)
      | none, none => (info.indent, info.stop, info.stop)
    let new := new.map (List.replicate indent ' ' ++ ·)
    buf.take start ++ new ++ buf.drop stop
  | none =>
    let gap := if buf.getLast?.any fun l => strip l ≠ [] then [[]] else []
    buf ++ gap ++ ('[' :: (name ++ [']'])) :: new

/-- The file in which an option is set, and what the maps know of it. -/
def placeOf (name option : Text) (w : Source Path) : Nat × Bool × Bool :=
  match w.fileOptionMap.get (name, option), w.fileSectionMap.get name with
  | some indices, _ => (indices.headD 0, true, true)
  | none, some indices => (indices.headD 0, true, false)
  | none, none => (0, false, false)

/-- `set_option` -/
def setOption (lower : Lowercase) (name option value : Text) (w : Source Path) : Edited Path :=
  let format := parserFormat lower
  if w.files = [] then (w, some .notFileBacked)
  else
    let value := strip value
    if (w.config.get format name option).map strip = some value then (w, none)
    else
      let (fileIdx, hasSec, hasOpt) := placeOf name option w
      let buf := splitLines ((w.rawConfigData[fileIdx]?).getD [])
      let updatedCfg := unlines (setLines name option value buf ++ [[]])
      if (testParser lower updatedCfg).any (Config.hasOption format name option) then
        let w := { w with
          rawConfigData := w.rawConfigData.set fileIdx updatedCfg
          updatesPending := insert fileIdx w.updatesPending
          fileSectionMap :=
            if hasSec then w.fileSectionMap else w.fileSectionMap.set name [fileIdx]
          fileOptionMap :=
            if hasOpt then w.fileOptionMap else w.fileOptionMap.set (name, option) [fileIdx] }
        match if w.config.hasSection name then .ok w.config else w.config.addSection name with
        | .error e => (w, some (.parser e))
        | .ok config =>
          match config.setOption format name option value with
          | .error e => ({ w with config }, some (.parser e))
          | .ok config => ({ w with config }, none)
      else (w, some (.setOption option name fileIdx))

/-- The lines without those from `start` to `stop`, and without an empty line behind them
where there is one before; before the first line Python finds the last one. -/
def removeLines (start stop : Nat) (buf : List Text) : List Text :=
  let before := if start = 0 then buf.getLast? else buf[start - 1]?
  let stop :=
    if (before.any fun l => strip l = []) ∧ ((buf[stop]?).any fun l => strip l = []) then stop + 1
    else stop
  buf.take start ++ buf.drop stop

/-- The text of a file without an option. -/
def withoutOption (lower : Lowercase) (name option text : Text) : Option Text := do
  let buf := splitLines text
  let info ← findSectionInfo name buf
  let o ← info.options.get option
  let updatedCfg := unlines (removeLines o.start o.stop buf ++ [[]])
  let config ← testParser lower updatedCfg
  if config.hasOption (parserFormat lower) name option then none else some updatedCfg

/-- The text of a file without a section. -/
def withoutSection (lower : Lowercase) (name text : Text) : Option Text := do
  let buf := splitLines text
  let info ← findSectionInfo name buf
  let updatedCfg := unlines (removeLines info.start info.stop buf ++ [[]])
  let config ← testParser lower updatedCfg
  if config.hasSection name then none else some updatedCfg

/-- The texts of some files after `edit`, or the first file for which there is none. -/
def editFiles (edit : Text → Option Text) (raw : List Text) :
    List Nat → Except Nat (List (Nat × Text))
  | [] => .ok []
  | idx :: indices =>
    match edit ((raw[idx]?).getD []) with
    | none => .error idx
    | some text => (editFiles edit raw indices).map ((idx, text) :: ·)

/-- The texts that are pending take the place of the old ones. -/
def applyPending (pending : List (Nat × Text)) (w : Source Path) : Source Path :=
  pending.foldl (fun w (idx, text) => { w with
    updatesPending := insert idx w.updatesPending
    rawConfigData := w.rawConfigData.set idx text }) w

/-- `remove_option` -/
def removeOption (lower : Lowercase) (name option : Text) (w : Source Path) : Edited Path :=
  if w.files = [] then (w, some .notFileBacked)
  else
    match w.fileOptionMap.get (name, option) with
    | none => (w, none)
    | some indices =>
      match editFiles (withoutOption lower name option) w.rawConfigData indices with
      | .error idx => (w, some (.removeOption option name idx))
      | .ok pending =>
        let w := applyPending pending w
        let w := { w with fileOptionMap := w.fileOptionMap.erase (name, option) }
        match w.config.removeOption (parserFormat lower) name option with
        | .error e => (w, some (.parser e))
        | .ok config => ({ w with config }, none)

/-- `add_section` -/
def addSection (lower : Lowercase) (name : Text) (w : Source Path) : Edited Path :=
  if w.files = [] then (w, some .notFileBacked)
  else if (w.fileSectionMap.get name).isSome then (w, none)
  else
    let buf := splitLines ((w.rawConfigData[0]?).getD [])
    let gap := if buf.getLast?.any fun l => strip l ≠ [] then [[]] else []
    let updatedCfg := unlines (buf ++ gap ++ ['[' :: (name ++ [']']), []])
    if (testParser lower updatedCfg).any (Config.hasSection name) then
      let w := { w with
        updatesPending := insert 0 w.updatesPending
        fileSectionMap := w.fileSectionMap.set name [0]
        rawConfigData := w.rawConfigData.set 0 updatedCfg }
      match w.config.addSection name with
      | .error e => (w, some (.parser e))
      | .ok config => ({ w with config }, none)
    else (w, some (.addSection name))

/-- `remove_section` -/
def removeSection (lower : Lowercase) (name : Text) (w : Source Path) : Edited Path :=
  if w.files = [] then (w, some .notFileBacked)
  else
    match w.fileSectionMap.get name with
    | none => (w, none)
    | some indices =>
      match editFiles (withoutSection lower name) w.rawConfigData indices with
      | .error _ => (w, some (.removeSection name))
      | .ok pending =>
        let w := applyPending pending w
        ({ w with
          fileSectionMap := w.fileSectionMap.erase name
          config := w.config.removeSection name }, none)

inductive Edit
  | setOption (name option value : Text)
  | removeOption (name option : Text)
  | addSection (name : Text)
  | removeSection (name : Text)
  deriving DecidableEq

def edit (lower : Lowercase) (w : Source Path) : Edit → Edited Path
  | .setOption name option value => setOption lower name option value w
  | .removeOption name option => removeOption lower name option w
  | .addSection name => addSection lower name w
  | .removeSection name => removeSection lower name w

/-! ## Transactions -/

/-- `backup_source` -/
def backupSource (w : Source Path) : Source Path :=
  { w with
    backup := some ⟨w.rawConfigData, w.fileSectionMap, w.fileOptionMap, w.config.write⟩ }

/-- `_do_save`: the wrapper afterwards, and the files it writes. -/
def doSave (w : Source Path) : Source Path × List (Path × Text) :=
  let w' := { w with backup := none }
  if w.updatesPending = ∅ then (w', [])
  else
    ({ w' with updatesPending := ∅ },
      (w.files.zip w.rawConfigData).zipIdx.filterMap fun (file, idx) =>
        if idx ∈ w.updatesPending then some file else none)

/-- What `cancel` raises. -/
inductive CancelError
  | notFileBacked
  | parser (e : ParseError)
  deriving DecidableEq

/-- `cancel` -/
def cancel (lower : Lowercase) (w : Source Path) : Source Path × Option CancelError :=
  if w.files = [] then (w, some .notFileBacked)
  else
    match w.backup with
    | none => (w, none)
    | some b =>
      if w.updatesPending = ∅ then ({ w with backup := none }, none)
      else
        let (config, raised) := Config.readString (parserFormat lower) w.config.clear b.config
        let w := { w with
          rawConfigData := b.rawData
          fileOptionMap := b.optionMap
          fileSectionMap := b.sectionMap
          config }
        match raised with
        | some e => (w, some (.parser e))
        | none => ({ w with updatesPending := ∅, backup := none }, none)

end FlsunT1.Moonraker
