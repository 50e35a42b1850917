/-
  Klippy/VariablesFile.lean --- the text of the saved variables
  (klippy/extras/save_variables.py).

  The writer makes a section of one option for each variable, with `repr` of its value;
  at the start the file is read by a parser and each value by `literal_eval`.  Python's
  literals are a parameter.  A name goes through the file when it is one that the parser
  can have read, and begins no header.
-/
import Mathlib.Data.Char
import Mathlib.Data.List.Lex
import Mathlib.Data.List.Sort
import FlsunT1.Library.ConfigFiles
import FlsunT1.Library.ConfigRoundTrip

set_option autoImplicit false

namespace FlsunT1.Klippy

open Library Library.Text

variable {V : Type}

/-! ## The file -/

/-- Python's values: `repr` is one line without white space at its ends.  Not every value
is read back from it by `ast.literal_eval`; an infinite float is not. -/
structure ValueTexts (V : Type) where
  repr : V → Text
  literalEval : Text → Option V
  repr_stripped : ∀ v, Stripped (repr v)
  repr_single : ∀ v, '\n' ∉ repr v ∧ '\r' ∉ repr v

/-- `configparser.ConfigParser()` -/
def variablesFormat (lower : Lowercase) : ConfigFormat where
  toLowercase := lower
  strict := true
  inlinePrefixes := []

def variablesSection : Text := "Variables".toList

/-- The items of a dictionary in the order of their names. -/
def sortedItems (vars : Dict Text V) : List (Text × V) :=
  vars.items.insertionSort fun a b => a.1 ≤ b.1

variable (L : ValueTexts V) (lower : Lowercase)

/-- What `_save_vars_thread` makes of the variables.  The check of `set` has nothing to
object to in a value with doubled signs. -/
def variablesConfig (vars : Dict Text V) : Except CallError Config := do
  let varfile ← Config.addSection variablesSection Sections.empty
  (sortedItems vars).foldlM (fun varfile (name, val) =>
    varfile.setOption (variablesFormat lower) variablesSection name
      (doublePercents (L.repr val))) varfile

/-- The text that `safe_write` leaves in the file, if there is no exception before. -/
def writtenText (vars : Dict Text V) : Option Text :=
  match variablesConfig L lower vars with
  | .ok varfile => some varfile.write
  | .error _ => none

/-- `ast.literal_eval(val)` of an option, after interpolation. -/
def readVariable (options : Dict Text Text) (val : Text) : Option V :=
  (beforeGet (variablesFormat lower) options val).bind L.literalEval

/-- `loadVariables`: nothing if it raises an error. -/
def loadVariablesText (text : Text) : Option (Dict Text V) :=
  match Config.readString (variablesFormat lower) Sections.empty (universalNewlines text) with
  | (_, some _) => none
  | (varfile, none) =>
    if varfile.hasSection variablesSection then
      (varfile.rawItems variablesSection).bind fun options =>
        options.items.foldlM (fun allvars (name, val) =>
          (readVariable L lower options val).map fun v => allvars.set name v) Dict.empty
    else some Dict.empty

/-- What is written for the variables is loaded as an equal dictionary. -/
def RoundTrips (vars : Dict Text V) : Prop :=
  ∃ text, writtenText L lower vars = some text ∧
    ∃ loaded, loadVariablesText L lower text = some loaded ∧
      ∀ name, loaded.get name = vars.get name

/-- A name that the parser reads as it is, from a line that is no header. -/
structure NameKept (name : Text) (val : V) : Prop where
  name_ok : NameOk (variablesFormat lower) name
  no_return : '\r' ∉ name
  not_header : name.head? = some '[' → ']' ∉ name.tail.tail ∧ ']' ∉ L.repr val

variable {L lower}

/-! ## The section that is written -/

/-- The options of the section. -/
def writtenOptions (L : ValueTexts V) (lower : Lowercase) (vars : Dict Text V) : Dict Text Text :=
  Dict.empty.setAll <| (sortedItems vars).map fun (name, val) =>
    (lower.optionxform name, doublePercents (L.repr val))

theorem foldlM_setOption (items : List (Text × V)) (p : Config) (options : Dict Text Text)
    (h : p.sections.get variablesSection = some options) :
    items.foldlM (fun varfile (name, val) =>
        Config.setOption (variablesFormat lower) variablesSection name
          (doublePercents (L.repr val)) varfile) p =
      .ok { p with
        sections := p.sections.set variablesSection <| options.setAll <|
          items.map fun (name, val) => (lower.optionxform name, doublePercents (L.repr val)) } := by
  have hname : ¬(variablesSection = [] ∨ variablesSection = defaultSection) := by decide
  induction items generalizing p options with
  | nil =>
    rw [List.map_nil, Dict.setAll, List.foldl_nil, Dict.set_of_get h]
    rfl
  | cons item items ih =>
    obtain ⟨name, val⟩ := item
    have hset : Config.setOption (variablesFormat lower) variablesSection name
        (doublePercents (L.repr val)) p =
          .ok { p with
            sections := p.sections.set variablesSection
              (options.set (lower.optionxform name) (doublePercents (L.repr val))) } := by
      rw [Config.setOption, if_neg hname, h]
      rfl
    rw [List.foldlM_cons]
    simp only [hset]
    refine (ih _ (options.set (lower.optionxform name) (doublePercents (L.repr val))) ?_).trans ?_
    · rw [Dict.get_set, if_pos rfl]
    · rw [Dict.set_set, List.map_cons, Dict.setAll, Dict.setAll, List.foldl_cons]

/-- The parser that is written. -/
def writtenConfig (L : ValueTexts V) (lower : Lowercase) (vars : Dict Text V) : Config where
  defaults := .empty
  sections := Dict.empty.set variablesSection (writtenOptions L lower vars)

theorem writtenText_eq (vars : Dict Text V) :
    writtenText L lower vars = some (writtenConfig L lower vars).write := by
  have hadd : Config.addSection variablesSection Sections.empty =
      .ok ⟨.empty, Dict.empty.set variablesSection .empty⟩ := rfl
  have hset := @foldlM_setOption V L lower (sortedItems vars)
    ⟨.empty, Dict.empty.set variablesSection .empty⟩ .empty (by rw [Dict.get_set, if_pos rfl])
  rw [writtenText, variablesConfig, hadd]
  simp only [bind, Except.bind]
  rw [hset, Dict.set_set]
  rfl

theorem writtenOptions_get {vars : Dict Text V}
    (h : ∀ name val, vars.get name = some val → lower.optionxform name = name) (name : Text) :
    (writtenOptions L lower vars).get name =
      (vars.get name).map fun val => doublePercents (L.repr val) := by
  have hperm : (sortedItems vars).Perm vars.items := List.perm_insertionSort _ _
  have hitems : ((sortedItems vars).map fun (name, val) =>
      (lower.optionxform name, doublePercents (L.repr val))).Perm
        (vars.mapVals fun val => doublePercents (L.repr val)).items := by
    refine (hperm.map _).trans (List.Perm.of_eq (List.map_congr_left fun kv hkv => ?_))
    obtain ⟨name, val⟩ := kv
    simp only [h name val (Dict.get_eq_some_iff.mpr hkv)]
  rw [writtenOptions, Dict.get_setAll_perm hitems, Dict.get_mapVals]

theorem head?_doublePercents (t : Text) : (doublePercents t).head? = t.head? := by
  cases t with
  | nil => rfl
  | cons c t =>
    rw [doublePercents, List.flatMap_cons]
    split
    · rename_i hc
      rw [hc]
      rfl
    · rfl

theorem getLast?_doublePercents (t : Text) : (doublePercents t).getLast? = t.getLast? := by
  induction t using List.reverseRecOn with
  | nil => rfl
  | append_singleton t c ih =>
    rw [doublePercents, List.flatMap_append, List.flatMap_singleton, List.getLast?_concat,
      List.getLast?_append]
    split
    · rename_i hc
      rw [hc]
      rfl
    · rfl

theorem stripped_doublePercents {t : Text} (h : Stripped t) : Stripped (doublePercents t) := by
  rw [Stripped, head?_doublePercents, getLast?_doublePercents]
  exact h

theorem NameKept.linesOk {name : Text} {val : V} (h : NameKept L lower name val) :
    LinesOk (variablesFormat lower) name [doublePercents (L.repr val)] where
  name := h.name_ok
  ne := List.cons_ne_nil _ _
  stripped l hl := by
    rw [List.mem_singleton.mp hl]
    exact stripped_doublePercents (L.repr_stripped val)
  single l hl := by
    rw [List.mem_singleton.mp hl, mem_doublePercents]
    exact (L.repr_single val).1
  not_comment l hl := absurd hl List.not_mem_nil
  not_header hhead := by
    refine ⟨(h.not_header hhead).1, fun l hl => ?_⟩
    rw [List.head?_cons, Option.mem_def, Option.some.injEq] at hl
    rw [← hl, mem_doublePercents]
    exact (h.not_header hhead).2

/-! ## The lines of the file -/

/-- The line of a variable. -/
def variableLine (L : ValueTexts V) (name : Text) (val : V) : Text :=
  name ++ " = ".toList ++ doublePercents (L.repr val)

variable {vars : Dict Text V}

theorem mem_writtenLines
    (h : ∀ name val, vars.get name = some val → lower.optionxform name = name) {line : Text}
    (hline : line ∈ configLines (writtenConfig L lower vars)) :
    line = "[Variables]".toList ∨ line = [] ∨
      ∃ name val, vars.get name = some val ∧ line = variableLine L name val := by
  have hlines : configLines (writtenConfig L lower vars) =
      sectionLines variablesSection (writtenOptions L lower vars) := List.append_nil _
  rw [hlines, sectionLines, List.mem_cons, List.mem_append, List.mem_singleton,
    List.mem_flatMap] at hline
  obtain hheader | ⟨⟨name, text⟩, hmem, hline⟩ | hempty := hline
  · exact Or.inl hheader
  · have hget : (writtenOptions L lower vars).get name = some text := Dict.get_eq_some_iff.mpr hmem
    rw [writtenOptions_get h, Option.map_eq_some_iff] at hget
    obtain ⟨val, hval, rfl⟩ := hget
    have hsingle : '\n' ∉ doublePercents (L.repr val) := by
      rw [mem_doublePercents]
      exact (L.repr_single val).1
    simp only [optionLines, List.splitOn_eq_singleton hsingle, List.map_nil,
      List.mem_singleton] at hline
    exact Or.inr (Or.inr ⟨name, val, hval, hline⟩)
  · exact Or.inr (Or.inl hempty)

/-- Without a break of a line in the names the file has the lines that are written. -/
theorem fileLines_written
    (h : ∀ name val, vars.get name = some val → NameOk (variablesFormat lower) name ∧ '\r' ∉ name) :
    universalNewlines (writtenConfig L lower vars).write = (writtenConfig L lower vars).write ∧
      fileLines (writtenConfig L lower vars).write = configLines (writtenConfig L lower vars) := by
  have hchars : ∀ line ∈ configLines (writtenConfig L lower vars), '\r' ∉ line ∧ '\n' ∉ line := by
    intro line hline
    obtain rfl | rfl | ⟨name, val, hval, rfl⟩ :=
      mem_writtenLines (fun name val hval => (h name val hval).1.lowered) hline
    · decide
    · exact ⟨List.not_mem_nil, List.not_mem_nil⟩
    · obtain ⟨hname, hreturn⟩ := h name val hval
      have hbreak : '\n' ∉ name := fun hmem => (hname.plain '\n' hmem).2 rfl
      have hspaced : '\r' ∉ " = ".toList ∧ '\n' ∉ " = ".toList := by decide
      simp only [variableLine, List.mem_append, mem_doublePercents, hreturn, hbreak,
        (L.repr_single val).1, (L.repr_single val).2, hspaced.1, hspaced.2, or_self,
        not_false_eq_true, and_self]
  refine ⟨universalNewlines_eq_self ?_, ?_⟩
  · rw [write_eq, joinLines, List.mem_flatMap]
    rintro ⟨line, hline, hmem⟩
    rcases List.mem_append.mp hmem with hmem | hmem
    · exact (hchars line hline).1 hmem
    · exact absurd hmem (by decide)
  · rw [write_eq, fileLines_joinLines fun line hline => (hchars line hline).2]

/-! ## Names that are kept -/

/-- If all names are kept, the parser has read what was written. -/
theorem readString_written (h : ∀ name val, vars.get name = some val → NameKept L lower name val) :
    Config.readString (variablesFormat lower) Sections.empty
      (universalNewlines (writtenConfig L lower vars).write) =
        (writtenConfig L lower vars, none) := by
  have hlowered : ∀ name val, vars.get name = some val → lower.optionxform name = name :=
    fun name val hval => (h name val hval).name_ok.lowered
  have hwritable : (writtenConfig L lower vars).Writable (variablesFormat lower) := by
    refine ⟨fun k v hv => absurd hv (by simp [writtenConfig]), fun s d hd k v hv => ?_,
      fun s d hd => ?_⟩
    all_goals
      rw [writtenConfig, Dict.get_set] at hd
      split at hd
    · cases hd
      rw [writtenOptions_get hlowered, Option.map_eq_some_iff] at hv
      obtain ⟨val, hval, rfl⟩ := hv
      exact ⟨_, (h k val hval).linesOk, (unlines_singleton _).symm, fun hne => absurd rfl hne⟩
    · cases hd
    · rename_i hs
      rw [hs]
      decide
    · cases hd
  have hlines := fileLines_written (L := L) fun name val hval =>
    ⟨(h name val hval).name_ok, (h name val hval).no_return⟩
  rw [hlines.1, readString_write rfl hwritable Sections.All.empty rfl]
  rfl

theorem loaded_of_kept (h : ∀ name val, vars.get name = some val → NameKept L lower name val) :
    loadVariablesText L lower (writtenConfig L lower vars).write =
      (writtenOptions L lower vars).items.foldlM (fun allvars kv =>
        (readVariable L lower (writtenOptions L lower vars) kv.2).map fun v => allvars.set kv.1 v)
          Dict.empty := by
  have hget : (writtenConfig L lower vars).sections.get variablesSection =
      some (writtenOptions L lower vars) := by
    rw [writtenConfig, Dict.get_set, if_pos rfl]
  have hraw : (writtenConfig L lower vars).rawItems variablesSection =
      some (writtenOptions L lower vars) := by
    rw [Config.rawItems, hget]
    exact congrArg some (Dict.setAll_items _)
  rw [loadVariablesText, readString_written h]
  simp only [Config.hasSection, hget, Option.isSome_some, if_true, hraw, Option.bind_some]

/-- What was read when a variable was loaded: an option that is on a line of the file. -/
structure Loaded (L : ValueTexts V) (lower : Lowercase) (text name : Text) (val : V) : Prop where
  name_ok : NameOk (variablesFormat lower) name
  line : ∃ line ∈ fileLines (universalNewlines text), ∃ ls,
    OptionLine (variablesFormat lower) line name ls

theorem loaded_of_get {text name : Text} {val : V} {loaded : Dict Text V}
    (hload : loadVariablesText L lower text = some loaded) (hget : loaded.get name = some val) :
    Loaded L lower text name val := by
  rw [loadVariablesText] at hload
  split at hload
  · cases hload
  · rename_i varfile hread
    have hwritable := writable_readString rfl Sections.All.empty hread
    have hlines := onLine_readString rfl hread
    cases hsection : varfile.sections.get variablesSection with
    | none =>
      rw [Config.hasSection, hsection] at hload
      cases hload
      cases hget
    | some d =>
      rw [Config.hasSection, hsection, if_pos Option.isSome_some, Config.rawItems, hsection,
        Option.bind_some] at hload
      have hmap := congrArg (Dict.get name) (Dict.mapVals_of_foldlM hload)
      rw [Dict.get_mapVals, hget, Dict.get_mapVals, Option.map_some, eq_comm,
        Option.map_eq_some_iff] at hmap
      obtain ⟨v, hv, -⟩ := hmap
      rw [Dict.get_update, Option.or_eq_some_iff] at hv
      rcases hv with hv | ⟨-, hv⟩
      · obtain ⟨ls, hls, -⟩ := hwritable.option _ d hsection name v hv
        obtain ⟨line, hline, ls', hoption, -⟩ := hlines.option _ d hsection name v hv
        exact ⟨hls.name, line, hline, ls', hoption⟩
      · obtain ⟨ls, hls, -⟩ := hwritable.default name v hv
        obtain ⟨line, hline, ls', hoption, -⟩ := hlines.default name v hv
        exact ⟨hls.name, line, hline, ls', hoption⟩

theorem Loaded.no_return {text name : Text} {val : V} (h : Loaded L lower text name val) :
    '\r' ∉ name := by
  obtain ⟨line, hline, ls, hoption⟩ := h.line
  obtain ⟨n, v, rest, hsplit, rfl, -⟩ := hoption.option
  rw [((variablesFormat lower).lowers n).mem_iff (by decide)]
  intro hmem
  obtain ⟨before, d, after, hvalue, -, -, rfl, -⟩ := optionOf_eq_some hsplit
  have hbefore : '\r' ∈ before := (List.rdropWhile_prefix _ _).subset hmem
  have hstrip : '\r' ∈ Text.strip line := hvalue ▸ List.mem_append_left _ hbefore
  exact not_mem_universalNewlines text (mem_of_mem_fileLines hline (mem_of_mem_strip hstrip))

theorem not_header_of_line {name : Text} {val : V} (hname : NameOk (variablesFormat lower) name)
    (h : headerOf (Text.strip (variableLine L name val)) = none) (hhead : name.head? = some '[') :
    ']' ∉ name.tail.tail ∧ ']' ∉ L.repr val := by
  obtain ⟨t, hstrip, ht, -⟩ := strip_optionLine hname.stripped hname.ne
    (stripped_doublePercents (L.repr_stripped val))
  rw [variableLine, hstrip, headerOf_eq_none_iff,
    List.head?_append_of_ne_nil _ hname.ne] at h
  have hnot := h hhead
  have hvalue : ']' ∈ L.repr val → ']' ∈ t := by
    intro hmem
    rw [← mem_doublePercents, ← ht] at hmem
    exact mem_of_mem_strip hmem
  cases name with
  | nil => cases hhead
  | cons c name =>
    cases name with
    | nil => exact ⟨List.not_mem_nil, fun hmem => hnot (List.mem_cons_of_mem _ (hvalue hmem))⟩
    | cons d name =>
      refine ⟨fun hmem => hnot (List.mem_append_left _ hmem), fun hmem => hnot ?_⟩
      exact List.mem_append_right _ (List.mem_cons_of_mem _ (List.mem_cons_of_mem _ (hvalue hmem)))

/-- If each variable was loaded under its name, all names are kept. -/
theorem nameKept_of_loaded
    (h : ∀ name val, vars.get name = some val →
      Loaded L lower (writtenConfig L lower vars).write name val) (name : Text) (val : V)
    (hval : vars.get name = some val) : NameKept L lower name val := by
  have hlowered : ∀ name val, vars.get name = some val → lower.optionxform name = name :=
    fun name val hval => (h name val hval).name_ok.lowered
  obtain ⟨hnewlines, hlines⟩ := fileLines_written (L := L) fun name val hval =>
    ⟨(h name val hval).name_ok, (h name val hval).no_return⟩
  have hname := (h name val hval).name_ok
  refine ⟨hname, (h name val hval).no_return, not_header_of_line hname ?_⟩
  obtain ⟨line, hline, ls, hoption⟩ := (h name val hval).line
  rw [hnewlines, hlines] at hline
  obtain ⟨n, v, rest, hsplit, rfl, -⟩ := hoption.option
  obtain rfl | rfl | ⟨name', val', hval', rfl⟩ := mem_writtenLines hlowered hline
  · cases hsplit
  · cases hsplit
  · -- the option of the line is the variable that was written there
    have hname' := (h name' val' hval').name_ok
    obtain ⟨t, hstrip, -, -⟩ := strip_optionLine hname'.stripped hname'.ne
      (stripped_doublePercents (L.repr_stripped val'))
    have hn : n = name' := by
      rw [variableLine, hstrip, optionOf_line hname'.stripped fun c hc => (hname'.plain c hc).1,
        Option.some.injEq, Prod.mk.injEq] at hsplit
      exact hsplit.1.symm
    subst hn
    have heq : (variablesFormat lower).optionxform n = n := hlowered n val' hval'
    rw [heq, hval', Option.some.injEq] at hval
    rw [heq, ← hval]
    exact hoption.not_header

/-- Exactly the dictionaries go through the file whose names are kept and whose values are
read back from their `repr`. -/
theorem roundTrips_iff (L : ValueTexts V) (lower : Lowercase) (vars : Dict Text V) :
    RoundTrips L lower vars ↔
      ∀ name val, vars.get name = some val →
        NameKept L lower name val ∧ L.literalEval (L.repr val) = some val := by
  have hread : ∀ options val, readVariable L lower options (doublePercents (L.repr val)) =
      L.literalEval (L.repr val) := by
    intro options val
    rw [readVariable, beforeGet_doublePercents, Option.bind_some]
  have hlowered (h : ∀ name val, vars.get name = some val → NameKept L lower name val) :
      ∀ name val, vars.get name = some val → lower.optionxform name = name :=
    fun name val hval => (h name val hval).name_ok.lowered
  constructor
  · rintro ⟨text, htext, loaded, hload, hsame⟩
    rw [writtenText_eq, Option.some.injEq] at htext
    subst htext
    have hkept : ∀ name val, vars.get name = some val → NameKept L lower name val :=
      nameKept_of_loaded fun name val hval => loaded_of_get hload (by rw [hsame, hval])
    intro name val hval
    refine ⟨hkept name val hval, ?_⟩
    rw [loaded_of_kept hkept] at hload
    have hmap := congrArg (Dict.get name) (Dict.mapVals_of_foldlM hload)
    rw [Dict.get_mapVals, Dict.get_mapVals, hsame, hval, writtenOptions_get (hlowered hkept), hval,
      Option.map_some, Option.map_some, Option.map_some, hread, Option.some.injEq] at hmap
    exact hmap.symm
  · intro h
    have hkept : ∀ name val, vars.get name = some val → NameKept L lower name val :=
      fun name val hval => (h name val hval).1
    have hwritten := writtenOptions_get (L := L) (hlowered hkept)
    refine ⟨_, writtenText_eq vars, ?_⟩
    have hvalues : ∀ kv ∈ (writtenOptions L lower vars).items,
        ∃ v, readVariable L lower (writtenOptions L lower vars) kv.2 = some v := by
      intro kv hkv
      have hget := Dict.get_eq_some_iff.mpr hkv
      rw [hwritten, Option.map_eq_some_iff] at hget
      obtain ⟨val, hval, htext⟩ := hget
      exact ⟨val, by rw [← htext, hread, (h _ val hval).2]⟩
    obtain ⟨loaded, hload⟩ := Dict.foldlM_isSome hvalues .empty
    refine ⟨loaded, (loaded_of_kept hkept).trans hload, fun name => ?_⟩
    have hmap := congrArg (Dict.get name) (Dict.mapVals_of_foldlM hload)
    rw [Dict.get_mapVals, Dict.get_mapVals, hwritten, Option.map_map] at hmap
    cases hval : vars.get name with
    | none =>
      rw [hval, Option.map_none, Option.map_eq_none_iff] at hmap
      exact hmap
    | some val =>
      rw [hval, Option.map_some, Function.comp_apply, hread, (h name val hval).2,
        Option.map_eq_some_iff] at hmap
      obtain ⟨v, hv, heq⟩ := hmap
      rw [hv, heq]

/-- The truth values as Python writes them. -/
def boolTexts : ValueTexts Bool where
  repr v := if v then "True".toList else "False".toList
  literalEval t :=
    if t = "True".toList then some true else if t = "False".toList then some false else none
  repr_stripped v := by
    cases v with
    | true =>
      constructor
      · intro c hc
        cases hc
        decide
      · intro c hc
        cases hc
        decide
    | false =>
      constructor
      · intro c hc
        cases hc
        decide
      · intro c hc
        cases hc
        decide
  repr_single v := by
    cases v with
    | true => decide
    | false => decide

/-- The name goes up to the first delimiter, and the file is not loaded any more. -/
theorem delimiter_in_name :
    ¬RoundTrips boolTexts Lowercase.ascii (Dict.empty.set "a:b".toList true) := by
  rintro ⟨text, htext, loaded, hload, -⟩
  have hfails : (writtenText boolTexts Lowercase.ascii (Dict.empty.set "a:b".toList true)).bind
      (loadVariablesText boolTexts Lowercase.ascii) = none := by decide +kernel
  rw [htext, Option.bind_some, hload] at hfails
  cases hfails

end FlsunT1.Klippy
