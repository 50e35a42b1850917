/-
  Klippy/ExtendedParams.lean --- commands with named parameters (klippy/gcode.py).

  The line of such a command is matched again: its name, what follows up to a comment, and that
  text cut by the rules of a shell into `NAME=value`.
-/
import FlsunT1.Klippy.GcodeLine
import FlsunT1.Library.Shlex

set_option autoImplicit false

namespace FlsunT1.Klippy

open Library

/-- `str.lower` and `str.upper`, which neither make nor take away the characters that quote a
name or end it. -/
structure CaseMap where
  lower : Text → Text
  upper : Text → Text
  lower_count : ∀ t, ∀ c ∈ "\\\"\n#*;".toList ++ [Shlex.singleQuote],
    (lower t).count c = t.count c
  upper_filename : upper "FILENAME".toList = "FILENAME".toList

/-! ## Matching a line -/

/-- `[a-zA-Z_]` -/
def isNameHead (c : Char) : Bool := c.isAlpha || c == '_'

/-- `[a-zA-Z0-9_]` -/
def isNameTail (c : Char) : Bool := isNameHead c || c.isDigit

/-- `[#*;]` -/
def isComment (c : Char) : Bool := c == '#' || c == '*' || c == ';'

/-- What follows a name of two or more characters and the space after it. -/
def afterCommand : Text → Option Text
  | [] => none
  | c :: cs =>
    if isNameHead c = false ∨ cs.takeWhile isNameTail = [] then none
    else
      match cs.dropWhile isNameTail with
      | [] => some []
      | d :: rest => if Text.isSpace d then some (Text.lstrip rest) else none

/-- What follows a line number. -/
def afterNumber : Text → Option Text
  | 'N' :: cs =>
    if cs.takeWhile Char.isDigit = [] then none
    else some (Text.lstrip (cs.dropWhile Char.isDigit))
  | _ => none

/-- The group `args` of `extended_r`, on a line of a script. -/
def extendedArgs (line : Text) : Option Text :=
  let line := Text.lstrip line
  let rest := ((afterNumber line).bind afterCommand).or (afterCommand line)
  rest.map fun rest => Text.rstrip (rest.takeWhile (!isComment ·))

/-- `earg.split('=', 1)`, where it has two parts. -/
def splitParam (earg : Text) : Option (Text × Text) :=
  match earg.dropWhile (· ≠ '=') with
  | [] => none
  | _ :: value => some (earg.takeWhile (· ≠ '='), value)

/-- `_get_extended_params`, with the parameters in their order; without a result the command
is malformed. -/
def getExtendedParams (cases : CaseMap) (commandline : Text) : Option (List (Text × Text)) := do
  let eargs ← extendedArgs commandline
  let tokens ← Shlex.split eargs
  let params ← tokens.mapM splitParam
  return params.map fun param => (cases.upper param.1, param.2)

/-- A parameter, the last one of its name. -/
def extendedParam (name : Text) (params : List (Text × Text)) : Option Text :=
  params.reverse.lookup name

/-! ## What is matched -/

theorem afterCommand_suffix {cs rest : Text} (h : afterCommand cs = some rest) : rest <:+ cs := by
  cases cs with
  | nil => cases h
  | cons c cs =>
    rw [afterCommand] at h
    split at h
    · cases h
    · split at h
      · rw [← Option.some.inj h]
        exact List.nil_suffix
      · rename_i d cs' hdrop
        split at h
        · rw [← Option.some.inj h]
          have htail : cs' <:+ cs := (List.suffix_cons d cs').trans
            (hdrop ▸ List.dropWhile_suffix isNameTail)
          exact (List.dropWhile_suffix _).trans (htail.trans (List.suffix_cons c cs))
        · cases h

theorem afterNumber_suffix {cs rest : Text} (h : afterNumber cs = some rest) : rest <:+ cs := by
  rw [afterNumber.eq_def] at h
  split at h
  · split at h
    · cases h
    · rw [← Option.some.inj h]
      exact ((List.dropWhile_suffix _).trans (List.dropWhile_suffix _)).trans
        (List.suffix_cons _ _)
  · cases h

theorem mem_of_extendedArgs {line args : Text} (h : extendedArgs line = some args) {c : Char}
    (hc : c ∈ args) : c ∈ line ∧ isComment c = false := by
  obtain ⟨rest, hrest, rfl⟩ := Option.map_eq_some_iff.mp h
  have hmem : c ∈ rest.takeWhile (!isComment ·) := (List.rdropWhile_prefix _ _).mem hc
  have hsuffix : rest <:+ Text.lstrip line := by
    rcases Option.or_eq_some_iff.mp hrest with hrest | ⟨-, hrest⟩
    · obtain ⟨cs, hcs, hrest⟩ := Option.bind_eq_some_iff.mp hrest
      exact (afterCommand_suffix hrest).trans (afterNumber_suffix hcs)
    · exact afterCommand_suffix hrest
  refine ⟨(hsuffix.trans (List.dropWhile_suffix _)).mem ((List.takeWhile_prefix _).mem hmem), ?_⟩
  have hcode := List.mem_takeWhile_imp (p := fun c => !isComment c) hmem
  exact (Bool.not_eq_true' _).mp hcode

theorem splitParam_eq {name value : Text} (h : '=' ∉ name) :
    splitParam (name ++ '=' :: value) = some (name, value) := by
  have hname : ∀ c ∈ name, decide (c ≠ '=') = true := fun c hc =>
    decide_eq_true fun heq => h (heq ▸ hc)
  rw [splitParam, List.dropWhile_append_of_pos hname, List.dropWhile_cons_of_neg (by decide),
    List.takeWhile_append_of_pos hname, List.takeWhile_cons_of_neg (by decide), List.append_nil]

theorem eq_of_splitParam {token name value : Text} (h : splitParam token = some (name, value)) :
    token = name ++ '=' :: value := by
  rw [splitParam] at h
  split at h
  · cases h
  · rename_i c value' hdrop
    obtain ⟨rfl, rfl⟩ := Prod.mk.inj (Option.some.inj h)
    have hc : c = '=' := by
      have hhead := List.head?_dropWhile_not (fun c => decide (c ≠ '=')) token
      rw [hdrop] at hhead
      simpa using hhead
    rw [hc] at hdrop
    rw [← hdrop, List.takeWhile_append_dropWhile]

end FlsunT1.Klippy
