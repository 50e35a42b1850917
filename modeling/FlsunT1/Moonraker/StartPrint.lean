/-
  Moonraker/StartPrint.lean --- printing a file by its name
  (moonraker/components/klippy_apis.py).

  The name is put into double quotes, with its own double quotes escaped, but not what a
  backslash escapes there, what begins a comment, or what ends a line.
-/
import FlsunT1.Klippy.SdFiles
import Mathlib.Algebra.Order.BigOperators.Group.List

set_option autoImplicit false

namespace FlsunT1.Moonraker

open Library Shlex Klippy

/-- What the script has in front of the quotes. -/
def printFileStart : String := "SDCARD_PRINT_FILE FILENAME="

/-- The script of `start_print`; there is none for an empty name. -/
def startPrint : Text → Option Text
  | [] => none
  | c :: cs =>
    let filename := if c = '/' then cs else c :: cs
    some (printFileStart.toList ++ doubleQuote :: escapeQuotes filename ++ [doubleQuote])

/-- What klippy does after `start_print`. -/
def startedPrint (cases : CaseMap) (sd : SdCard) (filename : Text) :
    Option (Except SdError (List SdAction)) :=
  (startPrint filename).map (runSdScript cases sd false)

/-- The names that can be printed: of the files that are listed, those without a comment, a line
break or a backslash that escapes something. -/
structure Printable (filename : Text) : Prop where
  ext : SdCard.fileExt filename ∈ Klippy.validGcodeExts
  quotable : Quotable filename
  plain : ∀ c ∈ filename, Klippy.isComment c = false ∧ c ≠ '\n'

variable {cases : CaseMap} {sd : SdCard}

/-! ## The line -/

/-- The line that is made of a name. -/
def printFileLine (rest : Text) : Text := printFileStart.toList ++ doubleQuote :: rest

theorem processLine_printFile (rest : Text) :
    (processLine (String.ofList (printFileLine rest))).1 = "SDCARD_PRINT_FILE" := by
  have hline : String.ofList (printFileLine rest) =
      printFileStart ++ String.ofList (doubleQuote :: rest) := by
    rw [printFileLine, String.ofList_append, String.ofList_toList]
  rw [hline]
  exact processLine_name "SDCARD_PRINT_FILE".toList "FILENAME".toList (by decide) (by decide)
    (by decide) (by decide)

theorem extendedArgs_printFile (rest : Text) :
    extendedArgs (printFileLine rest) = some (Text.rstrip
      ("FILENAME=".toList ++ doubleQuote :: rest.takeWhile (!Klippy.isComment ·))) := rfl

theorem split_printFile (cs : Text) : split ("FILENAME=".toList ++ doubleQuote :: cs) =
    read (.quoted doubleQuote) "FILENAME=".toList false cs := rfl

theorem runSdScript_line {line : Text} (h : '\n' ∉ line) (busy : Bool) :
    runSdScript cases sd busy line = runSdLine cases sd busy line := by
  have hsplit : line.splitOn '\n' = [line] := by
    have happend := splitOn_append h []
    rw [List.append_nil] at happend
    rw [happend, List.splitOn_nil, List.modifyHead_cons, List.append_nil]
  rw [runSdScript, hsplit, List.mapM_cons, List.mapM_nil]
  cases runSdLine cases sd busy line with
  | error e => rfl
  | ok acts => exact congrArg Except.ok (List.append_nil acts)

theorem plain_quotes {r : Text} (hplain : ∀ c ∈ r, Klippy.isComment c = false ∧ c ≠ '\n') :
    ∀ c ∈ escapeQuotes r ++ [doubleQuote], Klippy.isComment c = false ∧ c ≠ '\n' := by
  intro c hc
  rcases List.mem_append.mp hc with hc | hc
  · obtain ⟨d, hd, hc⟩ := List.mem_flatMap.mp hc
    have hback : Klippy.isComment backslash = false ∧ backslash ≠ '\n' := by decide
    split at hc
    · rcases List.mem_cons.mp hc with rfl | hc
      · exact hback
      · rw [List.mem_singleton.mp hc]
        exact hplain d hd
    · rw [List.mem_singleton.mp hc]
      exact hplain d hd
  · rw [List.mem_singleton.mp hc]
    decide

/-- The line of a name without a line break or a comment. -/
theorem runSdScript_plain {r : Text} (hplain : ∀ c ∈ r, Klippy.isComment c = false ∧ c ≠ '\n')
    (busy : Bool) : runSdScript cases sd busy (printFileLine (escapeQuotes r ++ [doubleQuote])) =
      match (read (.quoted doubleQuote) "FILENAME=".toList false
          (escapeQuotes r ++ [doubleQuote])).bind (List.mapM splitParam) with
      | none => .error (.malformed (String.ofList
          (printFileLine (escapeQuotes r ++ [doubleQuote]))))
      | some params => cmdSdcardPrintFile cases sd busy
          (params.map fun param => (cases.upper param.1, param.2)) := by
  have hquotes := plain_quotes hplain
  generalize hrest : escapeQuotes r ++ [doubleQuote] = rest at hquotes ⊢
  have hlast : ∀ c ∈ (printFileLine rest).getLast?, c = doubleQuote := by
    intro c hc
    rw [printFileLine, ← hrest, ← List.cons_append, ← List.append_assoc, List.getLast?_concat] at hc
    exact (Option.some.inj hc).symm
  have hline : '\n' ∉ printFileLine rest := by
    intro h
    rcases List.mem_append.mp h with h | h
    · revert h
      decide
    · rcases List.mem_cons.mp h with h | h
      · exact absurd h (by decide)
      · exact (hquotes _ h).2 rfl
  have hstrip : Klippy.strip (printFileLine rest) = printFileLine rest :=
    Klippy.strip_eq_self (fun c hc => by cases hc; rfl) fun c hc => by
      rw [hlast c hc]
      rfl
  have hgcmd : (processLine (String.ofList (printFileLine rest))).2.commandline =
      String.ofList (printFileLine rest) := by
    rw [processLine]
    simp only [String.toList_ofList, hstrip]
  have hargs : extendedArgs (printFileLine rest) =
      some ("FILENAME=".toList ++ doubleQuote :: rest) := by
    have htake : rest.takeWhile (!Klippy.isComment ·) = rest :=
      List.takeWhile_eq_self_iff.mpr fun c hc => by rw [(hquotes c hc).1]; rfl
    rw [extendedArgs_printFile, htake, Text.rstrip_eq_self]
    intro c hc
    have hsuffix : ("FILENAME=".toList ++ doubleQuote :: rest).getLast? =
        (printFileLine rest).getLast? := by
      rw [printFileLine, List.getLast?_append_cons, List.getLast?_append_cons]
    rw [hlast c (hsuffix ▸ hc)]
    rfl
  rw [runSdScript_line hline, runSdLine]
  simp only [processLine_printFile, hgcmd, if_true, String.toList_ofList]
  rw [getExtendedParams, hargs]
  simp only [Option.bind_eq_bind, Option.bind_some, split_printFile]
  cases read (.quoted doubleQuote) "FILENAME=".toList false rest with
  | none => rfl
  | some tokens =>
    rw [Option.bind_some, Option.bind_some]
    cases tokens.mapM splitParam with
    | none => rfl
    | some params => rfl

/-! ## What is opened -/

theorem opened_of_params {busy : Bool} {params : List (Text × Text)} {acts : List SdAction}
    (h : cmdSdcardPrintFile cases sd busy params = .ok acts) :
    ∃ name value, (name, value) ∈ params ∧ ∃ filename fname,
      (filename = value ∨ value = '/' :: filename) ∧ sd.findFile cases filename = some fname ∧
        acts = loadedFile (PosixPath.join sd.sdcardDirname fname) := by
  rw [cmdSdcardPrintFile] at h
  split at h
  · cases h
  · split at h
    · cases h
    · cases h
    · rename_i c cs hparam
      split at h
      · cases h
      · rename_i fname hfind
        obtain ⟨l₁, l₂, hparams, -⟩ := List.lookup_eq_some_iff.mp hparam
        have hmem : ("FILENAME".toList, c :: cs) ∈ params := by
          rw [← List.mem_reverse, hparams]
          exact List.mem_append_right _ List.mem_cons_self
        refine ⟨_, _, hmem, _, fname, ?_, hfind, (Except.ok.inj h).symm⟩
        split
        · rename_i hslash
          exact Or.inr (by rw [hslash])
        · exact Or.inl rfl

theorem mem_of_mapM {α β : Type} {f : α → Option β} {xs : List α} {ys : List β}
    (h : xs.mapM f = some ys) {y : β} (hy : y ∈ ys) : ∃ x ∈ xs, f x = some y := by
  induction xs generalizing ys with
  | nil =>
    rw [List.mapM_nil] at h
    rw [← Option.some.inj h] at hy
    cases hy
  | cons x xs ih =>
    rw [List.mapM_cons] at h
    obtain ⟨y', hy', h⟩ := Option.bind_eq_some_iff.mp h
    obtain ⟨ys', hys', h⟩ := Option.bind_eq_some_iff.mp h
    rw [← Option.some.inj h] at hy
    rcases List.mem_cons.mp hy with rfl | hy
    · exact ⟨x, List.mem_cons_self, hy'⟩
    · obtain ⟨x', hx', hf⟩ := ih hys' hy
      exact ⟨x', List.mem_cons_of_mem _ hx', hf⟩

theorem token_of_param {tokens : List Text} {params : List (Text × Text)}
    (h : tokens.mapM splitParam = some params) {name value : Text}
    (hmem : (name, value) ∈ params.map fun param => (cases.upper param.1, param.2)) :
    ∃ name', name' ++ '=' :: value ∈ tokens := by
  obtain ⟨⟨name', value'⟩, hparam, heq⟩ := List.mem_map.mp hmem
  obtain ⟨token, htoken, hsplit⟩ := mem_of_mapM h hparam
  obtain ⟨-, rfl⟩ := Prod.mk.inj heq
  exact ⟨name', eq_of_splitParam hsplit ▸ htoken⟩

/-- The characters that end a name, or a line, are not in the names of files that are opened. -/
theorem plain_of_opened {line : Text} {busy : Bool} {fname : Text} (hline : '\n' ∉ line)
    (hcmd : (processLine (String.ofList line)).1 = "SDCARD_PRINT_FILE")
    (hopened : runSdLine cases sd busy line =
      .ok (loadedFile (PosixPath.join sd.sdcardDirname fname)))
    (hfname : fname.head? ≠ some '/') :
    ∀ c ∈ fname, Klippy.isComment c = false ∧ c ≠ '\n' := by
  rw [runSdLine] at hopened
  simp only [hcmd, if_true] at hopened
  split at hopened
  · cases hopened
  · rename_i params hparams
    rw [getExtendedParams] at hparams
    obtain ⟨eargs, heargs, h⟩ := Option.bind_eq_some_iff.mp hparams
    obtain ⟨tokens, htokens, h⟩ := Option.bind_eq_some_iff.mp h
    obtain ⟨items, hitems, h⟩ := Option.bind_eq_some_iff.mp h
    obtain rfl := Option.some.inj h
    obtain ⟨name, value, hparam, filename, found, hvalue, hfind, hacts⟩ :=
      opened_of_params hopened
    obtain ⟨name', htoken⟩ := token_of_param hitems hparam
    obtain ⟨hlist, hlower⟩ := SdCard.findFile_spec hfind
    have hfound : fname = found :=
      SdCard.join_inj hfname (sd.relative _ (SdCard.mem_getFileList.mp hlist).1).2
        (SdAction.openFile.inj (List.cons.inj hacts).1)
    -- a character of the value comes from the line in front of its comment
    have hmem (c : Char) (hc : c ∈ filename) (hback : c ≠ backslash) :
        c ∈ line ∧ Klippy.isComment c = false := by
      have hvalue : c ∈ value := by
        rcases hvalue with rfl | rfl
        · exact hc
        · exact List.mem_cons_of_mem _ hc
      rcases mem_of_mem_read htokens htoken
        (List.mem_append_right _ (List.mem_cons_of_mem _ hvalue)) with h | h | h
      · cases h
      · obtain ⟨hline, hcode⟩ := mem_of_extendedArgs heargs h
        refine ⟨?_, hcode⟩
        rw [processLine] at hline
        simp only [String.toList_ofList] at hline
        rw [Klippy.strip] at hline
        exact (List.dropWhile_sublist _).mem (List.mem_reverse.mp
          ((List.dropWhile_sublist _).mem (List.mem_reverse.mp hline)))
      · exact absurd h hback
    have hnone (c : Char) (hkept : c ∈ "\\\"\n#*;".toList ++ [Shlex.singleQuote])
        (hnot : c ∉ filename) : c ∉ fname := by
      rw [hfound, ← List.count_eq_zero, ← cases.lower_count _ c hkept, hlower,
        cases.lower_count _ c hkept, List.count_eq_zero]
      exact hnot
    intro c hc
    refine ⟨?_, ?_⟩
    · by_contra hcomment
      rw [Bool.not_eq_false] at hcomment
      refine hnone c ?_ (fun h => ?_) hc
      · rw [Klippy.isComment, Bool.or_eq_true, Bool.or_eq_true, beq_iff_eq, beq_iff_eq, beq_iff_eq]
          at hcomment
        obtain (rfl | rfl) | rfl := hcomment <;> decide
      · have hback : c ≠ backslash := by
          rintro rfl
          exact absurd hcomment (by decide)
        rw [(hmem c h hback).2] at hcomment
        cases hcomment
    · rintro rfl
      exact hnone '\n' (by decide) (fun h => hline (hmem _ h (by decide)).1) hc

/-! ## Starting a print -/

theorem startPrint_of_mem {filename : Text} (h : filename ∈ sd.files) : startPrint filename =
    some (printFileLine (escapeQuotes filename ++ [doubleQuote])) := by
  obtain ⟨hne, hhead⟩ := sd.relative _ h
  match filename with
  | [] => exact absurd rfl hne
  | c :: cs =>
    have hc : c ≠ '/' := fun hc => hhead (congrArg some hc)
    rw [startPrint]
    simp only [if_neg hc]
    rw [printFileLine, List.append_assoc, List.cons_append]

/-- A printable name is the parameter that is read back. -/
theorem startedPrint_of_printable {filename : Text} (h : filename ∈ sd.files)
    (hname : Printable filename) : startedPrint cases sd filename =
      some (.ok (loadedFile (PosixPath.join sd.sdcardDirname filename))) := by
  have hread : (read (.quoted doubleQuote) "FILENAME=".toList false
      (escapeQuotes filename ++ [doubleQuote])).bind (List.mapM splitParam) =
        some [("FILENAME".toList, filename)] := by
    have htoken : "FILENAME=".toList ++ filename = "FILENAME".toList ++ '=' :: filename := rfl
    rw [read_escapeQuotes hname.quotable, htoken]
    have hparam : splitParam ("FILENAME".toList ++ '=' :: filename) =
        some ("FILENAME".toList, filename) := splitParam_eq (by decide)
    rw [read_end, Option.bind_some, List.mapM_cons, hparam]
    rfl
  have hlist : filename ∈ sd.getFileList cases := SdCard.mem_getFileList.mpr ⟨h, hname.ext⟩
  obtain ⟨hne, hhead⟩ := sd.relative _ h
  rw [startedPrint, startPrint_of_mem h, Option.map_some, runSdScript_plain hname.plain, hread]
  simp only [List.map_singleton]
  rw [cases.upper_filename, cmdSdcardPrintFile, if_neg Bool.false_ne_true]
  have hparam : extendedParam "FILENAME".toList [("FILENAME".toList, filename)] =
      some filename := rfl
  rw [hparam]
  match filename with
  | [] => exact absurd rfl hne
  | c :: cs =>
    have hc : c ≠ '/' := fun hc => hhead (congrArg some hc)
    simp only [if_neg hc, SdCard.findFile_of_mem hlist]

/-- The first line of the script opens the file, if the script does. -/
theorem runSdLine_of_runSdScript {line : Text} {lines : List Text} {path : Text}
    (h : ((line :: lines).mapM (runSdLine cases sd false)).map List.flatten =
      .ok (loadedFile path)) (hcmd : (processLine (String.ofList line)).1 = "SDCARD_PRINT_FILE") :
    runSdLine cases sd false line = .ok (loadedFile path) := by
  rw [List.mapM_cons] at h
  cases hline : runSdLine cases sd false line with
  | error e =>
    rw [hline] at h
    cases h
  | ok acts =>
    rw [hline] at h
    cases hlines : lines.mapM (runSdLine cases sd false) with
    | error e =>
      rw [hlines] at h
      cases h
    | ok actss =>
      rw [hlines] at h
      have hacts : acts ++ actss.flatten = loadedFile path := Except.ok.inj h
      rw [runSdLine] at hline
      simp only [hcmd, if_true] at hline
      split at hline
      · cases hline
      · obtain ⟨-, -, -, -, fname, -, -, hloaded⟩ := opened_of_params hline
        rw [hloaded] at hacts ⊢
        exact congrArg Except.ok (List.append_inj_left hacts rfl)

/-- The names that are opened are printable. -/
theorem printable_of_startedPrint {filename : Text} (h : filename ∈ sd.files)
    (hopened : startedPrint cases sd filename =
      some (.ok (loadedFile (PosixPath.join sd.sdcardDirname filename)))) : Printable filename := by
  obtain ⟨hne, hhead⟩ := sd.relative _ h
  rw [startedPrint, startPrint_of_mem h, Option.map_some] at hopened
  have hscript := Option.some.inj hopened
  have hplain : ∀ c ∈ filename, Klippy.isComment c = false ∧ c ≠ '\n' := by
    have hstart : '\n' ∉ printFileStart.toList ++ [doubleQuote] := by decide
    obtain ⟨rest, rests, hrest⟩ := List.exists_cons_of_ne_nil
      (List.splitOn_ne_nil '\n' (escapeQuotes filename ++ [doubleQuote]))
    have hsplit : (printFileLine (escapeQuotes filename ++ [doubleQuote])).splitOn '\n' =
        printFileLine rest :: rests := by
      rw [printFileLine, printFileLine, List.append_cons, splitOn_append hstart, hrest,
        List.modifyHead_cons, ← List.append_cons]
    have hline : '\n' ∉ printFileLine rest := not_mem_of_mem_splitOn (hsplit ▸ List.mem_cons_self)
    have hcmd := processLine_printFile rest
    rw [runSdScript, hsplit] at hscript
    exact plain_of_opened hline hcmd (runSdLine_of_runSdScript hscript hcmd) hhead
  rw [runSdScript_plain hplain] at hscript
  split at hscript
  · cases hscript
  · rename_i params hparams
    obtain ⟨tokens, htokens, hitems⟩ := Option.bind_eq_some_iff.mp hparams
    obtain ⟨name, value, hparam, filename', found, hvalue, hfind, hacts⟩ :=
      opened_of_params hscript
    obtain ⟨name', htoken⟩ := token_of_param hitems hparam
    obtain ⟨hlist, hlower⟩ := SdCard.findFile_spec hfind
    obtain ⟨hfound, hext⟩ := SdCard.mem_getFileList.mp hlist
    obtain rfl : filename = found := SdCard.join_inj hhead (sd.relative _ hfound).2
        (SdAction.openFile.inj (List.cons.inj hacts).1)
    refine ⟨hext, ?_, hplain⟩
    by_contra hquotable
    -- a token that weighs less than the name would have it as its value
    have hless := weight_read_escapeQuotes hquotable htokens le_rfl
    have hcount (c : Char) (hc : c ∈ "\\\"\n#*;".toList ++ [Shlex.singleQuote]) :
        filename'.count c = filename.count c := by
      rw [← cases.lower_count _ c hc, ← hlower, cases.lower_count _ c hc]
    have hweight (single : ℕ) : weight single filename' = weight single filename := by
      rw [weight_eq, weight_eq, hcount _ (by decide), hcount _ (by decide), hcount _ (by decide)]
    have hvalue (single : ℕ) : weight single filename' ≤ weight single value := by
      rcases hvalue with rfl | rfl
      · exact le_rfl
      · exact Nat.le_add_left _ _
    have htokens (single : ℕ) :
        weight single (name' ++ '=' :: value) ≤ (tokens.map (weight single)).sum :=
      List.le_sum_of_mem (List.mem_map_of_mem htoken)
    have hname (single : ℕ) : weight single "FILENAME=".toList = 0 := rfl
    refine Nat.not_lt.mpr ?_ hless
    rw [hname, Nat.zero_add, ← hweight]
    refine (hvalue _).trans (le_trans ?_ (htokens _))
    rw [weight_append, weight_cons]
    exact (Nat.le_add_left _ _).trans (Nat.le_add_left _ _)

/-- **The names that are printed.**  For every file of the sd card, `start_print` with its name
opens this file and does nothing else, if and only if the name is printable. -/
theorem startedPrint_iff {filename : Text} (h : filename ∈ sd.files) :
    startedPrint cases sd filename =
        some (.ok (loadedFile (PosixPath.join sd.sdcardDirname filename))) ↔
      Printable filename :=
  ⟨printable_of_startedPrint h, startedPrint_of_printable h⟩

/-- Names in lower case. -/
def lowerCases : CaseMap where
  lower := id
  upper := id
  lower_count := fun _ _ _ => rfl
  upper_filename := rfl

/-- A card with a name that has a comment. -/
def twoCubes : SdCard where
  sdcardDirname := "/gcodes".toList
  files := ["cube.gcode".toList, "cube #2.gcode".toList]
  dirname_ne_nil := by decide
  dirname_open := by decide
  relative := by decide

theorem startedPrint_iff_cube :
    startedPrint lowerCases twoCubes "cube.gcode".toList =
        some (.ok (loadedFile (PosixPath.join twoCubes.sdcardDirname "cube.gcode".toList))) ↔
      Printable "cube.gcode".toList :=
  startedPrint_iff (by decide)

/-- The second cube has the right extension and is not printed. -/
theorem startedPrint_comment : "cube #2.gcode".toList ∈ twoCubes.files ∧
    SdCard.fileExt "cube #2.gcode".toList ∈ Klippy.validGcodeExts ∧
    startedPrint lowerCases twoCubes "cube #2.gcode".toList =
      some (.error (.malformed "SDCARD_PRINT_FILE FILENAME=\"cube #2.gcode\"")) := by
  decide

end FlsunT1.Moonraker
