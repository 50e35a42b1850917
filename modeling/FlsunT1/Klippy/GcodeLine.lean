/-
  Klippy/GcodeLine.lean --- a line of g-code (klippy/gcode.py).

  `_process_commands` cuts a line into letters and the texts after them.  The first
  letter and its text name the command; all of them are its parameters, and a letter
  that comes twice has its last text.
-/
import Mathlib.Data.List.Basic
import Mathlib.Data.List.TakeWhile
import Mathlib.Tactic.IntervalCases
import FlsunT1.Klippy.GcodeCommand
import FlsunT1.Library.Text

set_option autoImplicit false

namespace FlsunT1.Klippy

/-! ## Cutting a line -/

/-- `[A-Z_]` -/
def isNameChar (c : Char) : Bool := c.isUpper || c == '_'

/-- `[*/]` -/
def isMark (c : Char) : Bool := c == '*' || c == '/'

/-- `args_r.split`: the text before the first part, then each part with the text after it.
Names are as long as possible, so a name character joins the name right behind it. -/
def splitArgs : List Char → List Char × List (List Char × List Char)
  | [] => ([], [])
  | c :: cs =>
    match isNameChar c, isMark c, splitArgs cs with
    | true, _, ([], (name, text) :: parts) =>
        if name.all isNameChar then ([], (c :: name, text) :: parts)
        else ([], ([c], []) :: (name, text) :: parts)
    | true, _, (text, parts) => ([], ([c], text) :: parts)
    | false, true, (text, parts) => ([], ([c], text) :: parts)
    | false, false, (text, parts) => (c :: text, parts)

/-- The space characters that `strip` takes off. -/
def isSpaceChar (c : Char) : Bool := c == ' ' || c == '\t' || c == '\n' || c == '\r'

/-- `str.strip` -/
def strip (cs : List Char) : List Char :=
  (((cs.dropWhile isSpaceChar).reverse).dropWhile isSpaceChar).reverse

/-- The line without its comment, in upper case. -/
def codeOf (line : List Char) : List Char :=
  ((strip line).takeWhile (· != ';')).map Char.toUpper

/-- The name of the command: the first part with its text, after a line number. -/
def commandName : List (List Char × List Char) → List Char
  | (['N'], _) :: (name, text) :: _ => name ++ strip text
  | [(['N'], _)] => []
  | (name, text) :: _ => name ++ strip text
  | [] => []

/-- The parameters, the last of one name first. -/
def lineParams (parts : List (List Char × List Char)) : List (String × String) :=
  (parts.map fun (name, text) => (String.ofList name, String.ofList (strip text))).reverse

/-- What `_process_commands` makes of a line: the name of the command and the command. -/
def processLine (line : String) : String × GCodeCommand :=
  let parts := (splitArgs (codeOf line.toList)).2
  (String.ofList (commandName parts), ⟨String.ofList (strip line.toList), lineParams parts⟩)

/-! ## Letters and the texts after them -/

/-- The characters of a text after a letter. -/
def isTextChar (c : Char) : Bool := c.toUpper == c && !isNameChar c && !isMark c && c != ';'

/-- A letter and the text after it. -/
abbrev Part := Char × List Char

/-- A line that is made of letters and texts. -/
def render (parts : List Part) : List Char := parts.flatMap fun (c, text) => c :: text

/-- Each part has an upper case letter and a text that is not empty. -/
def WellCut (parts : List Part) : Prop :=
  ∀ part ∈ parts, part.1.isUpper = true ∧ part.1.toUpper = part.1 ∧ part.2 ≠ [] ∧
    ∀ c ∈ part.2, isTextChar c = true

instance (parts : List Part) : Decidable (WellCut parts) :=
  inferInstanceAs (Decidable (∀ part ∈ parts, _))

theorem isTextChar_iff {c : Char} :
    isTextChar c = true ↔
      c.toUpper = c ∧ isNameChar c = false ∧ isMark c = false ∧ c ≠ ';' := by
  simp [isTextChar, and_assoc]

theorem splitArgs_text {text : List Char} (htext : ∀ c ∈ text, isTextChar c = true)
    (cs : List Char) :
    splitArgs (text ++ cs) = (text ++ (splitArgs cs).1, (splitArgs cs).2) := by
  induction text with
  | nil => rfl
  | cons c text ih =>
    obtain ⟨-, hname, hmark, -⟩ := isTextChar_iff.mp (htext c List.mem_cons_self)
    rw [List.cons_append, splitArgs, hname, hmark,
      ih fun d hd => htext d (List.mem_cons_of_mem c hd)]
    rfl

theorem splitArgs_letter {c : Char} {cs : List Char} (hc : isNameChar c = true)
    (htext : (splitArgs cs).1 ≠ []) :
    splitArgs (c :: cs) = ([], ([c], (splitArgs cs).1) :: (splitArgs cs).2) := by
  rw [splitArgs, hc]
  cases hsplit : splitArgs cs with
  | mk text parts =>
    cases text with
    | nil =>
      rw [hsplit] at htext
      exact absurd rfl htext
    | cons d text => rfl

theorem splitArgs_name {name : List Char} (hne : name ≠ [])
    (hname : ∀ c ∈ name, isNameChar c = true) {cs : List Char} (htext : (splitArgs cs).1 ≠ []) :
    splitArgs (name ++ cs) = ([], (name, (splitArgs cs).1) :: (splitArgs cs).2) := by
  induction name with
  | nil => exact absurd rfl hne
  | cons c name ih =>
    have hc := hname c List.mem_cons_self
    have hrest := fun d hd => hname d (List.mem_cons_of_mem c hd)
    cases name with
    | nil => exact splitArgs_letter hc htext
    | cons d name =>
      have hall : (d :: name).all isNameChar = true := List.all_eq_true.mpr hrest
      rw [List.cons_append, splitArgs, hc, ih (List.cons_ne_nil d name) hrest]
      dsimp only
      rw [if_pos hall]

theorem splitArgs_render {parts : List Part} (h : WellCut parts) :
    splitArgs (render parts) = ([], parts.map fun (c, text) => ([c], text)) := by
  induction parts with
  | nil => rfl
  | cons part parts ih =>
    obtain ⟨c, text⟩ := part
    obtain ⟨hupper, -, hne, htext⟩ := h (c, text) List.mem_cons_self
    have hrest := ih fun part hpart => h part (List.mem_cons_of_mem _ hpart)
    have hcut : splitArgs (text ++ render parts) =
        (text, parts.map fun (c, text) => ([c], text)) := by
      rw [splitArgs_text htext, hrest, List.append_nil]
    have hname : isNameChar c = true := by rw [isNameChar, hupper, Bool.true_or]
    have hne' : (splitArgs (text ++ render parts)).1 ≠ [] := by rwa [hcut]
    have hletter := splitArgs_letter hname hne'
    rw [hcut] at hletter
    exact hletter

theorem strip_eq_self {cs : List Char} (hhead : ∀ c ∈ cs.head?, isSpaceChar c = false)
    (hlast : ∀ c ∈ cs.getLast?, isSpaceChar c = false) : strip cs = cs := by
  have hdrop (ds : List Char) (hds : ∀ c ∈ ds.head?, isSpaceChar c = false) :
      ds.dropWhile isSpaceChar = ds := by
    cases ds with
    | nil => rfl
    | cons d ds => exact List.dropWhile_cons_of_neg (by rw [hds d rfl]; exact Bool.false_ne_true)
  rw [strip, hdrop cs hhead, hdrop cs.reverse (by rwa [List.head?_reverse]), List.reverse_reverse]

theorem strip_append_space {cs : List Char} (h : ∀ c ∈ cs, isSpaceChar c = false) :
    strip (cs ++ [' ']) = cs := by
  cases cs with
  | nil => rfl
  | cons c cs =>
    have hfront : ((c :: cs) ++ [' ']).dropWhile isSpaceChar = (c :: cs) ++ [' '] :=
      List.dropWhile_cons_of_neg (by rw [h c List.mem_cons_self]; exact Bool.false_ne_true)
    have hback : ((c :: cs).reverse).dropWhile isSpaceChar = (c :: cs).reverse :=
      List.dropWhile_eq_self_iff.mpr fun hl => by
        rw [h _ (List.mem_reverse.mp (List.getElem_mem hl))]
        exact Bool.false_ne_true
    rw [strip, hfront, List.reverse_append, List.reverse_singleton, List.singleton_append,
      List.dropWhile_cons_of_pos rfl, hback, List.reverse_reverse]

/-- `strip` leaves the start of a line that has no space at its ends. -/
theorem strip_append {start : List Char} (hhead : ∀ c ∈ start.head?, isSpaceChar c = false)
    (hlast : ∀ c ∈ start.getLast?, isSpaceChar c = false) (hne : start ≠ []) (cs : List Char) :
    ∃ cs', strip (start ++ cs) = start ++ cs' := by
  have hfront : (start ++ cs).dropWhile isSpaceChar = start ++ cs := by
    cases start with
    | nil => exact absurd rfl hne
    | cons c start =>
      exact List.dropWhile_cons_of_neg (by rw [hhead c rfl]; exact Bool.false_ne_true)
  have hback : start.reverse.dropWhile isSpaceChar = start.reverse := by
    cases hrev : start.reverse with
    | nil => rfl
    | cons c rest =>
      have hc : isSpaceChar c = false := hlast c (by rw [← List.head?_reverse, hrev]; rfl)
      exact List.dropWhile_cons_of_neg (by rw [hc]; exact Bool.false_ne_true)
  rw [strip, hfront, List.reverse_append, List.dropWhile_append, hback]
  split
  · exact ⟨[], by rw [List.reverse_reverse, List.append_nil]⟩
  · exact ⟨_, by rw [List.reverse_append, List.reverse_reverse]⟩

/-- The name of a command whose line starts with the name and `name=`. -/
theorem processLine_name {start rest : String} (name arg : List Char)
    (hstart : start.toList = name ++ (' ' :: (arg ++ ['='])))
    (hname : ∀ c ∈ name ++ arg, isNameChar c = true ∧ c.toUpper = c) (hlong : 1 < name.length)
    (harg : arg ≠ []) : (processLine (start ++ rest)).1 = String.ofList name := by
  have hne : name ≠ [] := fun h => absurd hlong (by rw [h]; exact Nat.not_lt_zero 1)
  have hspace (c : Char) (hc : isNameChar c = true) : isSpaceChar c = false := by
    cases hspace : isSpaceChar c with
    | false => rfl
    | true =>
      rw [isSpaceChar, Bool.or_eq_true, Bool.or_eq_true, Bool.or_eq_true, beq_iff_eq, beq_iff_eq,
        beq_iff_eq, beq_iff_eq] at hspace
      obtain ((rfl | rfl) | rfl) | rfl := hspace <;> cases hc
  have hcode (c : Char) (hc : isNameChar c = true) : (c != ';') = true :=
    bne_iff_ne.mpr fun heq => by rw [heq] at hc; cases hc
  obtain ⟨cs, hcs⟩ : ∃ cs, strip (start.toList ++ rest.toList) = start.toList ++ cs := by
    refine strip_append (fun c hc => ?_) (fun c hc => ?_) ?_ _
    · rw [hstart, List.head?_append_of_ne_nil _ hne] at hc
      exact hspace c (hname c (List.mem_append_left _ (List.mem_of_mem_head? hc))).1
    · rw [hstart, ← List.cons_append, ← List.append_assoc, List.getLast?_concat] at hc
      cases hc
      rfl
    · rw [hstart]
      exact List.append_ne_nil_of_left_ne_nil hne _
  have hkeep : ∀ c ∈ start.toList, (c != ';') = true := by
    rw [hstart]
    intro c hc
    rw [List.mem_append, List.mem_cons, List.mem_append, List.mem_singleton] at hc
    obtain hc | rfl | hc | rfl := hc
    · exact hcode c (hname c (List.mem_append_left _ hc)).1
    · rfl
    · exact hcode c (hname c (List.mem_append_right _ hc)).1
    · rfl
  have hmap (ds : List Char) (h : ∀ c ∈ ds, c.toUpper = c) : ds.map Char.toUpper = ds :=
    (List.map_congr_left h).trans (List.map_id _)
  have hcut : codeOf (start ++ rest).toList =
      name ++ (' ' :: (arg ++ '=' :: (cs.takeWhile (· != ';')).map Char.toUpper)) := by
    rw [codeOf, String.toList_append, hcs, List.takeWhile_append_of_pos hkeep, hstart]
    simp only [List.map_append, List.map_cons, List.append_assoc, List.cons_append,
      hmap name fun c hc => (hname c (List.mem_append_left _ hc)).2,
      hmap arg fun c hc => (hname c (List.mem_append_right _ hc)).2]
    rfl
  have htext (c : Char) (cs : List Char) (hc : isTextChar c = true) :
      splitArgs (c :: cs) = (c :: (splitArgs cs).1, (splitArgs cs).2) :=
    splitArgs_text (fun d hd => by rwa [List.mem_singleton.mp hd]) cs
  rw [processLine, hcut, splitArgs_name hne (fun c hc => (hname c (List.mem_append_left _ hc)).1)]
  · rw [commandName]
    · rw [htext _ _ (by decide), splitArgs_name harg
        (fun c hc => (hname c (List.mem_append_right _ hc)).1)
        (by rw [htext _ _ (by decide)]; exact List.cons_ne_nil _ _)]
      exact congrArg String.ofList (List.append_nil name)
    · rintro _ _ _ _ rfl
      exact absurd hlong (by decide)
    · rintro _ rfl
      exact absurd hlong (by decide)
  · rw [htext _ _ (by decide)]
    exact List.cons_ne_nil _ _

theorem processLine_eq {line : String} {parts : List Part}
    (hhead : ∀ c ∈ line.toList.head?, isSpaceChar c = false)
    (hlast : ∀ c ∈ line.toList.getLast?, isSpaceChar c = false)
    (hcode : ';' ∉ line.toList) (hupper : line.toList.map Char.toUpper = render parts)
    (h : WellCut parts) :
    processLine line =
      (String.ofList (commandName (parts.map fun (c, text) => ([c], text))),
        ⟨line, lineParams (parts.map fun (c, text) => ([c], text))⟩) := by
  have hstrip := strip_eq_self hhead hlast
  have hcomment : line.toList.takeWhile (· != ';') = line.toList :=
    List.takeWhile_eq_self_iff.mpr fun c hc => bne_iff_ne.mpr fun heq => hcode (heq ▸ hc)
  rw [processLine, codeOf, hstrip, hcomment, hupper, splitArgs_render h, String.ofList_toList]

/-! ## Numbers in a line -/

/-- The characters of a number that is written without an exponent. -/
def isPlainChar (c : Char) : Bool := c.isDigit || c == '.' || c == '-' || c == '+'

/-- A number that is written without an exponent. -/
def PlainText (text : String) : Prop :=
  text.toList ≠ [] ∧ ∀ c ∈ text.toList, isPlainChar c = true

instance (text : String) : Decidable (PlainText text) :=
  inferInstanceAs (Decidable (_ ∧ ∀ c ∈ text.toList, isPlainChar c = true))

theorem mem_digits {c : Char} (h : c.isDigit = true) : c ∈ "0123456789".toList := by
  have hlow : 48 ≤ c.toNat := (Char.isDigit_iff_toNat.mp h).1
  have hhigh : c.toNat ≤ 57 := (Char.isDigit_iff_toNat.mp h).2
  rw [← Char.ofNat_toNat c]
  interval_cases c.toNat <;> decide

theorem isPlainChar_text {c : Char} (h : isPlainChar c = true) :
    isTextChar c = true ∧ isSpaceChar c = false := by
  have hdigits : ∀ d ∈ "0123456789".toList, isTextChar d = true ∧ isSpaceChar d = false := by
    decide
  rw [isPlainChar, Bool.or_eq_true, Bool.or_eq_true, Bool.or_eq_true, beq_iff_eq, beq_iff_eq,
    beq_iff_eq] at h
  obtain ((hdigit | rfl) | rfl) | rfl := h
  · exact hdigits c (mem_digits hdigit)
  · decide
  · decide
  · decide

namespace PlainText

variable {text : String}

theorem upper (h : PlainText text) : text.toList.map Char.toUpper = text.toList :=
  (List.map_congr_left fun c hc => (isTextChar_iff.mp (isPlainChar_text (h.2 c hc)).1).1).trans
    (List.map_id _)

theorem noSpace (h : PlainText text) : ∀ c ∈ text.toList, isSpaceChar c = false :=
  fun c hc => (isPlainChar_text (h.2 c hc)).2

theorem isText (h : PlainText text) : ∀ c ∈ text.toList, isTextChar c = true :=
  fun c hc => (isPlainChar_text (h.2 c hc)).1

theorem strip_toList (h : PlainText text) : strip text.toList = text.toList :=
  strip_eq_self (fun c hc => h.noSpace c (List.mem_of_mem_head? hc))
    fun c hc => h.noSpace c (List.mem_of_getLast? hc)

theorem of_int (n : ℤ) : PlainText (toString n) := by
  have hdigit (m : ℕ) : ∀ c ∈ (Nat.repr m).toList, isPlainChar c = true := by
    intro c hc
    rw [Nat.toList_repr] at hc
    rw [isPlainChar, Nat.isDigit_of_mem_toDigits (by decide) (by decide) hc]
    rfl
  cases n with
  | ofNat m =>
    refine ⟨?_, hdigit m⟩
    have hlength : 0 < (Nat.toDigits 10 m).length := Nat.length_toDigits_pos
    rw [← Nat.toList_repr] at hlength
    exact List.ne_nil_of_length_pos hlength
  | negSucc m =>
    have hminus : (toString (Int.negSucc m)).toList = '-' :: (Nat.repr (m + 1)).toList :=
      String.toList_append
    rw [PlainText, hminus]
    refine ⟨List.cons_ne_nil _ _, ?_⟩
    rintro c (_ | ⟨_, hc⟩)
    · rfl
    · exact hdigit (m + 1) c hc

end PlainText

/-! ## Lines with one number -/

/-- The start of a line with one number: the letter and the number of the command, and the
letter of the parameter. -/
structure Opening (start : String) (c : Char) (code : List Char) (letter : Char) : Prop where
  text : start.toList = (c :: (code ++ [' '])) ++ [letter]
  wellCut : WellCut [(c, code ++ [' ']), (letter, ['0'])]
  noSpace : ∀ d ∈ c :: code, isSpaceChar d = false
  name : c ≠ 'N'

theorem commandName_cons {c : Char} (h : c ≠ 'N') (text : List Char)
    (parts : List (List Char × List Char)) :
    commandName (([c], text) :: parts) = c :: strip text := by
  have hname : [c] ≠ ['N'] := fun heq => h (List.singleton_inj.mp heq)
  rw [commandName]
  · rfl
  · rintro _ _ _ _ ⟨⟩
    exact hname rfl
  · rintro _ ⟨⟩
    exact hname rfl

namespace Opening

variable {start : String} {c letter : Char} {code : List Char}

/-- What is made of a line with this start, when the rest consists of a text and of
letters with their texts. -/
theorem processLine_append (h : Opening start c code letter) {rest : String} {text : List Char}
    {parts : List Part} (hupper : rest.toList.map Char.toUpper = text ++ render parts)
    (hcut : WellCut ((letter, text) :: parts)) (hne : rest.toList ≠ [])
    (hspace : ∀ d ∈ rest.toList, isSpaceChar d = false) (hcode : ';' ∉ rest.toList) :
    processLine (start ++ rest) =
      (String.ofList (c :: code), ⟨start ++ rest,
        lineParams (parts.map fun (c, text) => ([c], text)) ++
          [(String.ofList [letter], String.ofList (strip text)),
            (String.ofList [c], String.ofList code)]⟩) := by
  have hall : (start ++ rest).toList = (c :: (code ++ [' '])) ++ letter :: rest.toList := by
    rw [String.toList_append, h.text, List.append_assoc, List.singleton_append]
  have hc := h.wellCut (c, code ++ [' ']) List.mem_cons_self
  have hletter := h.wellCut (letter, ['0']) (List.mem_cons_of_mem _ List.mem_cons_self)
  have hcodeText (d : Char) (hd : d ∈ code ++ [' ']) : d.toUpper = d ∧ d ≠ ';' :=
    ⟨(isTextChar_iff.mp (hc.2.2.2 d hd)).1, (isTextChar_iff.mp (hc.2.2.2 d hd)).2.2.2⟩
  have hstripCode : strip (code ++ [' ']) = code :=
    strip_append_space fun d hd => h.noSpace d (List.mem_cons_of_mem c hd)
  have hcutAll : WellCut ((c, code ++ [' ']) :: (letter, text) :: parts) := by
    rintro part (_ | ⟨_, hpart⟩)
    · exact hc
    · exact hcut part hpart
  have hupperAll : (start ++ rest).toList.map Char.toUpper =
      render ((c, code ++ [' ']) :: (letter, text) :: parts) := by
    have hmap : (code ++ [' ']).map Char.toUpper = code ++ [' '] :=
      (List.map_congr_left fun d hd => (hcodeText d hd).1).trans (List.map_id _)
    rw [hall, List.map_append, List.map_cons, List.map_cons, hmap, hupper, hc.2.1, hletter.2.1]
    rfl
  have hnoCode : ';' ∉ (start ++ rest).toList := by
    have hupperCase (d : Char) (hd : d.isUpper = true) : ';' ≠ d := by
      rintro rfl
      cases hd
    rw [hall, List.mem_append, List.mem_cons, List.mem_cons]
    rintro ((hd | hd) | hd | hd)
    · exact hupperCase c hc.1 hd
    · exact (hcodeText _ hd).2 rfl
    · exact hupperCase letter hletter.1 hd
    · exact hcode hd
  rw [processLine_eq ?_ ?_ hnoCode hupperAll hcutAll]
  · rw [List.map_cons, commandName_cons h.name, hstripCode]
    simp only [lineParams, List.map_cons, List.reverse_cons, hstripCode, List.append_assoc,
      List.singleton_append]
  · rw [hall]
    rintro d ⟨⟩
    exact h.noSpace c List.mem_cons_self
  · rw [String.toList_append, List.getLast?_append_of_ne_nil _ hne]
    exact fun d hd => hspace d (List.mem_of_getLast? hd)

theorem processLine_plain (h : Opening start c code letter) {text : String}
    (htext : PlainText text) :
    processLine (start ++ text) =
      (String.ofList (c :: code), ⟨start ++ text,
        [(String.ofList [letter], text), (String.ofList [c], String.ofList code)]⟩) := by
  have hletter := h.wellCut (letter, ['0']) (List.mem_cons_of_mem _ List.mem_cons_self)
  have hcut : WellCut [(letter, text.toList)] := by
    rintro part (_ | ⟨_, hpart⟩)
    · exact ⟨hletter.1, hletter.2.1, htext.1, htext.isText⟩
    · cases hpart
  have hupper : text.toList.map Char.toUpper = text.toList ++ render [] :=
    htext.upper.trans (List.append_nil _).symm
  have hline := h.processLine_append hupper hcut htext.1 htext.noSpace
    fun hd => (isTextChar_iff.mp (htext.isText _ hd)).2.2.2 rfl
  rw [hline, htext.strip_toList, String.ofList_toList]
  rfl

/-- What is made of a line with a number in exponent notation: its exponent is the
parameter `E`. -/
theorem processLine_exponent (h : Opening start c code letter) {mantissa exponent : String}
    (hm : PlainText mantissa) (hx : PlainText exponent) :
    processLine (start ++ (mantissa ++ "e" ++ exponent)) =
      (String.ofList (c :: code), ⟨start ++ (mantissa ++ "e" ++ exponent),
        [("E", exponent), (String.ofList [letter], mantissa),
          (String.ofList [c], String.ofList code)]⟩) := by
  have hletter := h.wellCut (letter, ['0']) (List.mem_cons_of_mem _ List.mem_cons_self)
  have hchars : (mantissa ++ "e" ++ exponent).toList =
      mantissa.toList ++ 'e' :: exponent.toList := by
    rw [String.toList_append, String.toList_append]
    simp
  have hupper : (mantissa ++ "e" ++ exponent).toList.map Char.toUpper =
      mantissa.toList ++ render [('E', exponent.toList)] := by
    rw [hchars, List.map_append, List.map_cons, hm.upper, hx.upper]
    simp [render]
  have hcut : WellCut [(letter, mantissa.toList), ('E', exponent.toList)] := by
    rintro part (_ | ⟨_, _ | ⟨_, hpart⟩⟩)
    · exact ⟨hletter.1, hletter.2.1, hm.1, hm.isText⟩
    · exact ⟨rfl, rfl, hx.1, hx.isText⟩
    · cases hpart
  have hmem (d : Char) (hd : d ∈ (mantissa ++ "e" ++ exponent).toList) :
      isSpaceChar d = false ∧ d ≠ ';' := by
    rw [hchars, List.mem_append, List.mem_cons] at hd
    obtain hd | rfl | hd := hd
    · exact ⟨hm.noSpace d hd, (isTextChar_iff.mp (hm.isText d hd)).2.2.2⟩
    · exact ⟨rfl, by decide⟩
    · exact ⟨hx.noSpace d hd, (isTextChar_iff.mp (hx.isText d hd)).2.2.2⟩
  have hline := h.processLine_append hupper hcut (by rw [hchars]; simp)
    (fun d hd => (hmem d hd).1) fun hd => (hmem _ hd).2 rfl
  rw [hline, hm.strip_toList, String.ofList_toList]
  simp only [lineParams, List.map_cons, List.map_nil, List.reverse_singleton, hx.strip_toList,
    String.ofList_toList]
  rfl

end Opening

end FlsunT1.Klippy
