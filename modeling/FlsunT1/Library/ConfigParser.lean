/-
  Library/ConfigParser.lean --- Python's `configparser`, as `_read` and `write` have it.

  A file is read line by line.  A value that goes on over several lines is kept as the
  list of its lines until the end of the file, where the lines are joined.  The options
  of the section `DEFAULT` are kept apart from the sections.
-/
import Mathlib.Tactic.IntervalCases
import FlsunT1.Library.Dict
import FlsunT1.Library.Lines
import FlsunT1.Library.Text

set_option autoImplicit false

namespace FlsunT1.Library

open Text

/-! ## Option names -/

/-- The characters of the syntax and white space; none of them has a case. -/
def isSyntax (c : Char) : Bool := isSpace c || c ∈ "=:[]#;".toList

/-- What `str.lower` makes of a text: the characters of the syntax stay, and any other
character becomes one or more that are none of the syntax. -/
inductive Lowers : Text → Text → Prop
  | nil : Lowers [] []
  | keep {c : Char} {t u : Text} : isSyntax c = true → Lowers t u → Lowers (c :: t) (c :: u)
  | letter {c : Char} {p t u : Text} : isSyntax c = false → p ≠ [] →
      (∀ d ∈ p, isSyntax d = false) → Lowers t u → Lowers (c :: t) (p ++ u)

namespace Lowers

variable {c : Char} {t u : Text}

theorem mem_iff (h : Lowers t u) (hc : isSyntax c = true) : c ∈ u ↔ c ∈ t := by
  induction h with
  | nil => rfl
  | keep hd h ih => rw [List.mem_cons, List.mem_cons, ih]
  | @letter d p t u hd hp hall h ih =>
    have hcd : c ≠ d := by
      rintro rfl
      rw [hc] at hd
      cases hd
    have hcp : c ∉ p := by
      intro hmem
      rw [hall c hmem] at hc
      cases hc
    rw [List.mem_append, List.mem_cons, ih, or_iff_right hcp, or_iff_right hcd]

theorem eq_nil_iff (h : Lowers t u) : u = [] ↔ t = [] := by
  cases h with
  | nil => rfl
  | keep hd h => exact iff_of_false (List.cons_ne_nil _ _) (List.cons_ne_nil _ _)
  | letter hd hp hall h =>
    exact iff_of_false (List.append_ne_nil_of_left_ne_nil hp _) (List.cons_ne_nil _ _)

theorem length_le (h : Lowers t u) : t.length ≤ u.length := by
  induction h with
  | nil => exact le_rfl
  | keep hd h ih => exact Nat.succ_le_succ ih
  | @letter d p t u hd hp hall h ih =>
    have hpos := List.length_pos_iff.mpr hp
    rw [List.length_cons, List.length_append]
    omega

/-- The first characters are the same one of the syntax, or both none of it. -/
theorem head (h : Lowers t u) : ∀ c ∈ u.head?, ∃ d ∈ t.head?, isSyntax c = isSyntax d ∧
    (isSyntax c = true → c = d) := by
  cases h with
  | nil => exact fun _ h => nomatch h
  | @keep d t u hd h =>
    intro c hc
    rw [List.head?_cons, Option.mem_def, Option.some.injEq] at hc
    exact ⟨d, rfl, by rw [hc], fun _ => hc.symm⟩
  | @letter d p t u hd hp hall h =>
    intro c hc
    obtain ⟨e, p, rfl⟩ := List.exists_cons_of_ne_nil hp
    rw [List.cons_append, List.head?_cons, Option.mem_def, Option.some.injEq] at hc
    have hc' : isSyntax c = false := hc ▸ hall e List.mem_cons_self
    refine ⟨d, rfl, by rw [hc', hd], fun h => ?_⟩
    rw [hc'] at h
    cases h

theorem last (h : Lowers t u) : ∀ c ∈ u.getLast?, ∃ d ∈ t.getLast?, isSyntax c = isSyntax d ∧
    (isSyntax c = true → c = d) := by
  induction h with
  | nil => exact fun _ h => nomatch h
  | @keep d t u hd h ih =>
    intro c hc
    rw [List.getLast?_cons, Option.mem_def, Option.some.injEq] at hc
    cases hu : u.getLast? with
    | none =>
      rw [List.getLast?_eq_none_iff] at hu
      have ht : t = [] := h.eq_nil_iff.mp hu
      subst ht hu
      exact ⟨d, rfl, by rw [← hc]; rfl, fun _ => hc.symm⟩
    | some e =>
      rw [hu, Option.getD_some] at hc
      obtain ⟨d', hd', hsame⟩ := ih e hu
      refine ⟨d', ?_, hc ▸ hsame⟩
      rw [List.getLast?_cons, Option.mem_def.mp hd']
      rfl
  | @letter d p t u hd hp hall h ih =>
    intro c hc
    cases hu : u.getLast? with
    | none =>
      rw [List.getLast?_eq_none_iff] at hu
      have ht : t = [] := h.eq_nil_iff.mp hu
      subst ht hu
      rw [List.append_nil] at hc
      have hc' : isSyntax c = false := hall c (List.mem_of_getLast? hc)
      refine ⟨d, rfl, by rw [hc', hd], fun h => ?_⟩
      rw [hc'] at h
      cases h
    | some e =>
      rw [List.getLast?_append, hu, Option.some_or, Option.mem_def, Option.some.injEq] at hc
      obtain ⟨d', hd', hsame⟩ := ih e hu
      refine ⟨d', ?_, hc ▸ hsame⟩
      rw [List.getLast?_cons, Option.mem_def.mp hd']
      rfl

/-- A character of the syntax behind the second one was behind the second one before. -/
theorem mem_tail (h : Lowers t u) (hc : isSyntax c = true) (hmem : c ∈ u.tail) : c ∈ t.tail := by
  cases h with
  | nil => exact hmem
  | keep hd h => exact (h.mem_iff hc).mp hmem
  | @letter d p t u hd hp hall h =>
    rw [List.tail_append_of_ne_nil hp, List.mem_append] at hmem
    rcases hmem with hmem | hmem
    · rw [hall c (List.mem_of_mem_tail hmem)] at hc
      cases hc
    · exact (h.mem_iff hc).mp hmem

theorem mem_tail_tail {d : Char} (h : Lowers (d :: t) u) (hd : isSyntax d = true)
    (hc : isSyntax c = true) (hmem : c ∈ u.tail.tail) : c ∈ t.tail := by
  cases h with
  | keep hd' h => exact h.mem_tail hc hmem
  | letter hd' => rw [hd] at hd'; cases hd'

theorem stripped (h : Lowers t u) (ht : Stripped t) : Stripped u := by
  have hspace : ∀ d, isSyntax d = false → isSpace d = false := by
    intro d hd
    rw [isSyntax, Bool.or_eq_false_iff] at hd
    exact hd.1
  constructor
  · intro c hc
    obtain ⟨d, hd, hsame, heq⟩ := h.head c hc
    cases hs : isSyntax c with
    | true => exact heq hs ▸ ht.1 d hd
    | false => exact hspace c hs
  · intro c hc
    obtain ⟨d, hd, hsame, heq⟩ := h.last c hc
    cases hs : isSyntax c with
    | true => exact heq hs ▸ ht.2 d hd
    | false => exact hspace c hs

end Lowers

/-- The names of options in lower case: `optionxform`. -/
structure Lowercase where
  optionxform : Text → Text
  lowers : ∀ t, Lowers t (optionxform t)
  lowers_again : ∀ t, optionxform (optionxform t) = optionxform t

theorem toLower_cases (c : Char) : c.toLower = c ∨
    isSyntax c = false ∧ isSyntax c.toLower = false ∧ c.toLower.toLower = c.toLower := by
  by_cases h : c.val ≥ 'A'.val ∧ c.val ≤ 'Z'.val
  · right
    have hletters : ∀ d ∈ "ABCDEFGHIJKLMNOPQRSTUVWXYZ".toList,
        isSyntax d = false ∧ isSyntax d.toLower = false ∧ d.toLower.toLower = d.toLower := by decide
    apply hletters
    have hlow : 65 ≤ c.toNat := h.1
    have hhigh : c.toNat ≤ 90 := h.2
    rw [← Char.ofNat_toNat c]
    interval_cases c.toNat <;> decide
  · exact Or.inl (dif_neg h)

/-- Lower case of the letters of ASCII. -/
def Lowercase.ascii : Lowercase where
  optionxform t := t.map Char.toLower
  lowers t := by
    induction t with
    | nil => exact .nil
    | cons c t ih =>
      rw [List.map_cons]
      cases hc : isSyntax c with
      | true =>
        rcases toLower_cases c with hsame | ⟨hnot, -⟩
        · rw [hsame]
          exact .keep hc ih
        · rw [hc] at hnot
          cases hnot
      | false =>
        refine .letter (p := [c.toLower]) hc (List.cons_ne_nil _ _) (fun d hd => ?_) ih
        rw [List.mem_singleton.mp hd]
        rcases toLower_cases c with hsame | ⟨-, hnot, -⟩
        · rw [hsame]
          exact hc
        · exact hnot
  lowers_again t := by
    rw [List.map_map]
    refine List.map_congr_left fun c _ => ?_
    rcases toLower_cases c with hsame | ⟨-, -, hagain⟩
    · rw [Function.comp_apply, hsame, hsame]
    · exact hagain

/-- The arguments of the parser: how strict it is, and what begins a comment behind a value. -/
structure ConfigFormat extends Lowercase where
  strict : Bool
  inlinePrefixes : List Char

/-! ## Sections and options -/

/-- The dictionaries of a parser, with values of type `β`. -/
structure Sections (β : Type) where
  defaults : Dict Text β
  sections : Dict Text (Dict Text β)
  deriving DecidableEq

/-- A parser between two calls. -/
abbrev Config := Sections Text

def defaultSection : Text := "DEFAULT".toList

namespace Sections

variable {β γ : Type}

def empty : Sections β := ⟨.empty, .empty⟩

/-- The sections after a change of the options of one of them; a name that is no section
stands for the defaults. -/
def modify (s : Text) (f : Dict Text β → Dict Text β) (p : Sections β) : Sections β :=
  match p.sections.get s with
  | some d => { p with sections := p.sections.set s (f d) }
  | none => { p with defaults := f p.defaults }

def map (f : β → γ) (p : Sections β) : Sections γ :=
  ⟨p.defaults.mapVals f, p.sections.mapVals (Dict.mapVals f)⟩

end Sections

/-! ## Reading -/

/-- A value while a file is read: a text from before, or the lines read so far. -/
inductive Entry
  | text (t : Text)
  | lines (ls : List Text)
  deriving DecidableEq

namespace Entry

/-- `cursect[optname].append(v)` -/
def append (v : Text) : Entry → Entry
  | text t => text t
  | lines ls => lines (ls ++ [v])

/-- What `_join_multiline_values` makes of a value. -/
def join : Entry → Text
  | text t => t
  | lines ls => rstrip (unlines ls)

end Entry

inductive ParseError
  | duplicateSection (s : Text)
  | duplicateOption (s o : Text)
  | missingSectionHeader (line : Text)
  | parsing
  deriving DecidableEq

/-- The variables of `_read`; `optname` is empty when there is none, and in `added` a
section stands alone and an option with its section. -/
structure Reading where
  parser : Sections Entry
  cursect : Option Text
  optname : Text
  indentLevel : Nat
  added : List (Text × Option Text)
  failed : Bool

/-- Does the text begin with one of the prefixes of a comment? -/
def isComment : Text → Bool
  | [] => false
  | c :: _ => c == '#' || c == ';'

/-- `SECTCRE`: the name goes up to the last bracket. -/
def headerOf : Text → Option Text
  | '[' :: t =>
    match (t.rdropWhile (· ≠ ']')).dropLast with
    | [] => none
    | name => some name
  | _ => none

/-- `[=:]` -/
def isDelimiter (c : Char) : Bool := c == '=' || c == ':'

/-- `OPTCRE`: what is before and what is after the first delimiter. -/
def optionOf (value : Text) : Option (Text × Text) :=
  match value.dropWhile (!isDelimiter ·) with
  | [] => none
  | _ :: t => some (rstrip (value.takeWhile (!isDelimiter ·)), strip t)

/-- The places of a character in a line. -/
def occurrences (p : Char) (line : Text) : List Nat := line.findIdxs (· == p)

/-- Does a comment begin at this place of the line? -/
def beginsComment (line : Text) (index : Nat) : Bool :=
  index == 0 || ((line)[index - 1]?).any isSpace

/-- Where an inline comment begins.  The prefixes are looked for in rounds: their first
places, their second places and so on, until a round has one that begins a comment. -/
def inlineStart (prefixes : List Char) (line : Text) : Option Nat :=
  (List.range line.length).findSome? fun k =>
    ((prefixes.filterMap fun p => (occurrences p line)[k]?).filter (beginsComment line)).min?

/-- `comment_start`, if there is a comment. -/
def commentStart (f : ConfigFormat) (line : Text) : Option Nat :=
  if isComment (strip line) then some 0 else inlineStart f.inlinePrefixes line

namespace Reading

def start (p : Config) : Reading := ⟨p.map .text, none, [], 0, [], false⟩

/-- The options of a section with a further line of one of them. -/
def appendTo (o v : Text) (options : Dict Text Entry) : Dict Text Entry :=
  match options.get o with
  | some e => options.set o (e.append v)
  | none => options

/-- `cursect[optname].append(v)`, where there is an option. -/
def appendLine (v : Text) (r : Reading) : Reading :=
  match r.cursect with
  | some s =>
    if r.optname = [] then r
    else { r with parser := r.parser.modify s (appendTo r.optname v) }
  | none => r

/-- A line with a section header. -/
def header (f : ConfigFormat) (s : Text) (r : Reading) : Except ParseError Reading :=
  if (r.parser.sections.get s).isSome then
    if f.strict ∧ (s, none) ∈ r.added then .error (.duplicateSection s)
    else .ok { r with cursect := some s, optname := [], added := (s, none) :: r.added }
  else if s = defaultSection then .ok { r with cursect := some s, optname := [] }
  else
    .ok { r with
      parser := { r.parser with sections := r.parser.sections.set s .empty }
      cursect := some s, optname := [], added := (s, none) :: r.added }

/-- A line with an option of the section `s`; the name is without its white space. -/
def option (f : ConfigFormat) (s name v : Text) (r : Reading) : Except ParseError Reading :=
  let optname := f.optionxform name
  if f.strict ∧ (s, some optname) ∈ r.added then .error (.duplicateOption s optname)
  else
    .ok { r with
      parser := r.parser.modify s fun d => d.set optname (.lines [v])
      optname := optname, added := (s, some optname) :: r.added
      failed := r.failed || name.isEmpty }

/-- The body of the loop of `_read`. -/
def readLine (f : ConfigFormat) (r : Reading) (line : Text) : Except ParseError Reading :=
  let comment := commentStart f line
  let value := strip (comment.elim line (line.take ·))
  if value = [] then .ok (if comment.isNone then r.appendLine [] else r)
  else if r.cursect.isSome ∧ r.optname ≠ [] ∧ r.indentLevel < indent line then
    .ok (r.appendLine value)
  else
    let r := { r with indentLevel := indent line }
    match headerOf value, r.cursect with
    | some s, _ => r.header f s
    | none, none => .error (.missingSectionHeader line)
    | none, some s =>
      match optionOf value with
      | some (name, v) => r.option f s name v
      | none => .ok { r with failed := true }

/-- The loop of `_read`, up to the end or to an error. -/
def readLines (f : ConfigFormat) : Reading → List Text → Reading × Option ParseError
  | r, [] => (r, none)
  | r, line :: lines =>
    match r.readLine f line with
    | .ok r' => readLines f r' lines
    | .error e => (r, some e)

end Reading

/-- The lines of a text, as a loop over a file has them. -/
def fileLines (t : Text) : List Text :=
  linesOf '\n' t ++ if tailOf '\n' t = [] then [] else [tailOf '\n' t]

/-- `read_string`: the parser afterwards, and what is raised. -/
def Config.readString (f : ConfigFormat) (p : Config) (t : Text) : Config × Option ParseError :=
  let (r, e) := Reading.readLines f (Reading.start p) (fileLines t)
  (r.parser.map Entry.join, e.or (if r.failed then some .parsing else none))

/-! ## Writing -/

/-- The value with its lines set in: `value.replace("\n", "\n\t")`. -/
def setIn (v : Text) : Text := v.flatMap fun c => if c = '\n' then ['\n', '\t'] else [c]

/-- `_write_section` -/
def writeSection (s : Text) (options : Dict Text Text) : Text :=
  '[' :: s ++ "]\n".toList ++
    (options.items.flatMap fun (o, v) => o ++ " = ".toList ++ setIn v ++ ['\n']) ++ ['\n']

/-- `write` -/
def Config.write (p : Config) : Text :=
  (if p.defaults.items = [] then [] else writeSection defaultSection p.defaults) ++
    p.sections.items.flatMap fun (s, options) => writeSection s options

/-! ## Calls -/

/-- `has_section` -/
def Config.hasSection (s : Text) (p : Config) : Bool := (p.sections.get s).isSome

/-- `has_option` -/
def Config.hasOption (f : ConfigFormat) (s o : Text) (p : Config) : Bool :=
  if s = [] ∨ s = defaultSection then (p.defaults.get (f.optionxform o)).isSome
  else
    match p.sections.get s with
    | none => false
    | some d => (d.get (f.optionxform o)).isSome || (p.defaults.get (f.optionxform o)).isSome

/-- `get`, or nothing where there is no such section or option. -/
def Config.get (f : ConfigFormat) (s o : Text) (p : Config) : Option Text :=
  match p.sections.get s with
  | some d => (d.get (f.optionxform o)).or (p.defaults.get (f.optionxform o))
  | none => if s = defaultSection then p.defaults.get (f.optionxform o) else none

inductive CallError
  | noSection (s : Text)
  | duplicateSection (s : Text)
  | invalidSection
  deriving DecidableEq

/-- `set` -/
def Config.setOption (f : ConfigFormat) (s o v : Text) (p : Config) : Except CallError Config :=
  if s = [] ∨ s = defaultSection then
    .ok { p with defaults := p.defaults.set (f.optionxform o) v }
  else
    match p.sections.get s with
    | none => .error (.noSection s)
    | some d => .ok { p with sections := p.sections.set s (d.set (f.optionxform o) v) }

/-- `remove_option` -/
def Config.removeOption (f : ConfigFormat) (s o : Text) (p : Config) : Except CallError Config :=
  if s = [] ∨ s = defaultSection then
    .ok { p with defaults := p.defaults.erase (f.optionxform o) }
  else
    match p.sections.get s with
    | none => .error (.noSection s)
    | some d => .ok { p with sections := p.sections.set s (d.erase (f.optionxform o)) }

/-- `add_section` -/
def Config.addSection (s : Text) (p : Config) : Except CallError Config :=
  if s = defaultSection then .error .invalidSection
  else if (p.sections.get s).isSome then .error (.duplicateSection s)
  else .ok { p with sections := p.sections.set s .empty }

/-- `remove_section` -/
def Config.removeSection (s : Text) (p : Config) : Config :=
  { p with sections := p.sections.erase s }

/-- `clear`, which takes the sections away and leaves the defaults. -/
def Config.clear (p : Config) : Config := { p with sections := .empty }

end FlsunT1.Library
