/-
  Library/ConfigFiles.lean --- the files of a configuration parser and the values in them.

  A file that is opened as text has its line ends made one.  An option that was read
  comes from a line of the file that is no comment and no header.  A value refers to
  others by `%(name)s`, and a doubled sign stands for itself.
-/
import FlsunT1.Library.ConfigReading

set_option autoImplicit false

namespace FlsunT1.Library

open Text

/-! ## Line ends -/

/-- `open(filename)`: the ends of lines are read as `\n`. -/
def universalNewlines : Text → Text
  | [] => []
  | '\r' :: '\n' :: t => '\n' :: universalNewlines t
  | c :: t => (if c = '\r' then '\n' else c) :: universalNewlines t

theorem not_mem_universalNewlines (t : Text) : '\r' ∉ universalNewlines t := by
  fun_induction universalNewlines t with
  | case1 => exact List.not_mem_nil
  | case2 t ih =>
    rw [List.mem_cons, not_or]
    exact ⟨by decide, ih⟩
  | case3 c t hpair ih =>
    rw [List.mem_cons, not_or]
    refine ⟨fun heq => ?_, ih⟩
    split at heq
    · exact absurd heq (by decide)
    · rename_i hc
      exact hc heq.symm

theorem universalNewlines_eq_self {t : Text} (h : '\r' ∉ t) : universalNewlines t = t := by
  fun_induction universalNewlines t with
  | case1 => rfl
  | case2 t ih => exact absurd List.mem_cons_self h
  | case3 c t hpair ih =>
    rw [List.mem_cons, not_or] at h
    rw [if_neg (Ne.symm h.1), ih h.2]

theorem mem_of_mem_fileLines {t l : Text} {c : Char} (h : l ∈ fileLines t) (hc : c ∈ l) : c ∈ t := by
  have hlines : joinLines '\n' (linesOf '\n' t) ++ tailOf '\n' t = t := joinLines_linesOf t
  rw [← hlines]
  rcases List.mem_append.mp h with h | h
  · refine List.mem_append_left _ (List.mem_flatMap.mpr ⟨l, h, List.mem_append_left _ hc⟩)
  · split at h
    · exact absurd h List.not_mem_nil
    · rw [List.mem_singleton.mp h] at hc
      exact List.mem_append_right _ hc

/-! ## Interpolation -/

/-- `value.replace('%', "%%")` -/
def doublePercents (value : Text) : Text := value.flatMap fun c => if c = '%' then ['%', '%'] else [c]

theorem mem_doublePercents {c : Char} {value : Text} : c ∈ doublePercents value ↔ c ∈ value := by
  rw [doublePercents, List.mem_flatMap]
  constructor
  · rintro ⟨d, hd, hc⟩
    split at hc
    · rename_i heq
      rw [List.mem_cons, List.mem_singleton, or_self, ← heq] at hc
      exact hc ▸ hd
    · exact List.mem_singleton.mp hc ▸ hd
  · intro hc
    refine ⟨c, hc, ?_⟩
    split
    · rename_i heq
      exact heq ▸ List.mem_cons_self
    · exact List.mem_singleton_self c

/-- Where in a value the interpolation is: in its text, behind a sign, in the name of a
reference or behind its bracket. -/
inductive Place
  | text
  | sign
  | name (n : Text)
  | closed (n : Text)

/-- The loop of `_interpolate_some` over a value; `value` is what a reference stands for. -/
def interpolateFrom (value : Text → Option Text) : Place → Text → Option Text
  | .text, [] => some []
  | _, [] => none
  | .text, c :: rest =>
    if c = '%' then interpolateFrom value .sign rest
    else (interpolateFrom value .text rest).map (c :: ·)
  | .sign, c :: rest =>
    if c = '%' then (interpolateFrom value .text rest).map ('%' :: ·)
    else if c = '(' then interpolateFrom value (.name []) rest
    else none
  | .name n, c :: rest =>
    if c = ')' then if n = [] then none else interpolateFrom value (.closed n) rest
    else interpolateFrom value (.name (n ++ [c])) rest
  | .closed n, c :: rest =>
    if c = 's' then
      (value n).bind fun v => (interpolateFrom value .text rest).map (v ++ ·)
    else none

/-- `_interpolate_some`, with the depth that is left. -/
def interpolateSome (f : ConfigFormat) (map : Dict Text Text) : Nat → Text → Option Text
  | 0, _ => none
  | depth + 1, rest =>
    interpolateFrom (fun var => (map.get (f.optionxform var)).bind fun v =>
      if '%' ∈ v then interpolateSome f map depth v else some v) .text rest

def maxInterpolationDepth : Nat := 10

/-- `before_get` -/
def beforeGet (f : ConfigFormat) (defaults : Dict Text Text) (value : Text) : Option Text :=
  interpolateSome f defaults maxInterpolationDepth value

theorem interpolateFrom_doublePercents (value : Text → Option Text) (t : Text) :
    interpolateFrom value .text (doublePercents t) = some t := by
  induction t with
  | nil => rfl
  | cons c t ih =>
    rw [doublePercents, List.flatMap_cons, ← doublePercents]
    split
    · rename_i hc
      subst hc
      simp only [List.cons_append, List.nil_append, interpolateFrom, if_true, ih, Option.map_some]
    · rename_i hc
      simp only [List.singleton_append, interpolateFrom, hc, if_false, ih, Option.map_some]

/-- A value with doubled signs refers to nothing. -/
theorem beforeGet_doublePercents (f : ConfigFormat) (defaults : Dict Text Text) (t : Text) :
    beforeGet f defaults (doublePercents t) = some t := interpolateFrom_doublePercents _ t

/-- The options of a section with those of the defaults: `items`, before interpolation. -/
def Config.rawItems (s : Text) (p : Config) : Option (Dict Text Text) :=
  match p.sections.get s with
  | some d => some (p.defaults.update d)
  | none => if s = defaultSection then some p.defaults else none

/-! ## Where an option comes from -/

variable {f : ConfigFormat}

/-- The line of the file has this option, and maybe others add lines to its value. -/
structure OptionLine (f : ConfigFormat) (line k : Text) (ls : List Text) : Prop where
  not_comment : isComment (strip line) = false
  not_header : headerOf (strip line) = none
  option : ∃ name v rest, optionOf (strip line) = some (name, v) ∧ k = f.optionxform name ∧
    ls = v :: rest

/-- The option of an entry is on one of the lines. -/
def OnLine (f : ConfigFormat) (lines : List Text) (k : Text) (e : Entry) : Prop :=
  ∃ line ∈ lines, ∃ ls, OptionLine f line k ls ∧ e = .lines ls

theorem OnLine.append {lines : List Text} {k : Text} {e : Entry} (h : OnLine f lines k e)
    (v : Text) : OnLine f lines k (e.append v) := by
  obtain ⟨line, hline, ls, ⟨hcomment, hheader, name, w, rest, hoption, hk, rfl⟩, rfl⟩ := h
  exact ⟨line, hline, w :: rest ++ [v], ⟨hcomment, hheader, name, w, rest ++ [v], hoption, hk, rfl⟩,
    rfl⟩

theorem onLine_readLines (hf : f.inlinePrefixes = []) {all lines : List Text} {r r' : Reading}
    (h : r.parser.All (OnLine f all)) (hlines : ∀ l ∈ lines, l ∈ all ∧ '\n' ∉ l)
    (hr : Reading.readLines f r lines = (r', none)) : r'.parser.All (OnLine f all) := by
  induction lines generalizing r with
  | nil =>
    cases hr
    exact h
  | cons line lines ih =>
    rw [Reading.readLines] at hr
    obtain ⟨hmem, hnl⟩ := hlines line List.mem_cons_self
    cases hline : r.readLine f line with
    | error e =>
      rw [hline] at hr
      cases hr
    | ok r₁ =>
      rw [hline] at hr
      refine ih ?_ (fun l hl => hlines l (List.mem_cons_of_mem _ hl)) hr
      refine Sections.All.readLine hf h hnl (fun v _ _ _ k e he => he.append v)
        (fun name v hcomment hheader hoption _ => ?_) hline
      exact ⟨line, hmem, [v], ⟨hcomment, hheader, name, v, [], hoption, rfl, rfl⟩, rfl⟩

/-- Where the text is all that is read, each option is on a line of it. -/
theorem onLine_readString (hf : f.inlinePrefixes = []) {p : Config} {t : Text}
    (h : Config.readString f Sections.empty t = (p, none)) :
    p.All fun k v => ∃ line ∈ fileLines t, ∃ ls, OptionLine f line k ls ∧
      v = rstrip (unlines ls) := by
  cases hr : Reading.readLines f (Reading.start Sections.empty) (fileLines t) with
  | mk r e =>
    simp only [Config.readString, hr, Prod.mk.injEq] at h
    obtain ⟨rfl, herror⟩ := h
    cases e with
    | some e => cases herror
    | none =>
      have hstart : (Reading.start Sections.empty).parser.All (OnLine f (fileLines t)) :=
        Sections.All.empty
      refine (onLine_readLines hf hstart (fun l hl => ⟨hl, not_mem_of_mem_fileLines hl⟩) hr).map ?_
      rintro k e ⟨line, hline, ls, hls, rfl⟩
      exact ⟨line, hline, ls, hls, rfl⟩

end FlsunT1.Library
