/-
  Library/Text.lean --- texts as Python's `str` has them.

  A text is the list of its characters.  White space is that of `str.isspace`, the
  breaks between lines are those of `str.splitlines`, and stripping takes white space
  off the ends.
-/
import Mathlib.Data.List.DropRight

set_option autoImplicit false

namespace FlsunT1.Library

abbrev Text := List Char

/-- A property of the characters of a text is tested on each of them. -/
instance (priority := 1100) decidableForallMemText (t : List Char) (p : Char → Prop)
    [DecidablePred p] : Decidable (∀ c ∈ t, p c) := List.decidableBAll p t

instance (priority := 1100) decidableMemTexts (t : Text) (ts : List Text) : Decidable (t ∈ ts) :=
  inferInstance

namespace Text

/-! ## White space -/

/-- `c.isspace()` -/
def isSpace (c : Char) : Bool :=
  let n := c.toNat
  decide (0x09 ≤ n ∧ n ≤ 0x0d) || decide (0x1c ≤ n ∧ n ≤ 0x20) || n == 0x85 || n == 0xa0 ||
    n == 0x1680 || decide (0x2000 ≤ n ∧ n ≤ 0x200a) || n == 0x2028 || n == 0x2029 ||
    n == 0x202f || n == 0x205f || n == 0x3000

/-- `t.lstrip()` -/
def lstrip (t : Text) : Text := t.dropWhile isSpace

/-- `t.rstrip()` -/
def rstrip (t : Text) : Text := t.rdropWhile isSpace

/-- `t.strip()` -/
def strip (t : Text) : Text := rstrip (lstrip t)

/-- The number of characters before the first that is not white space. -/
def indent (t : Text) : Nat := (t.takeWhile isSpace).length

/-- There is no white space at the ends of the text. -/
def Stripped (t : Text) : Prop :=
  (∀ c ∈ t.head?, isSpace c = false) ∧ ∀ c ∈ t.getLast?, isSpace c = false

theorem stripped_nil : Stripped [] := ⟨(fun _ h => nomatch h), (fun _ h => nomatch h)⟩

theorem lstrip_cons_of_not {c : Char} (h : isSpace c = false) (t : Text) : lstrip (c :: t) = c :: t :=
  List.dropWhile_cons_of_neg (by rw [h]; exact Bool.false_ne_true)

theorem lstrip_eq_self {t : Text} (h : ∀ c ∈ t.head?, isSpace c = false) : lstrip t = t := by
  cases t with
  | nil => rfl
  | cons c t => exact lstrip_cons_of_not (h c rfl) t

theorem rstrip_eq_self {t : Text} (h : ∀ c ∈ t.getLast?, isSpace c = false) : rstrip t = t := by
  refine (List.rdropWhile_eq_self_iff).mpr fun hne hlast => ?_
  have hc := h (t.getLast hne) (List.getLast?_eq_some_getLast hne)
  rw [hc] at hlast
  cases hlast

theorem strip_eq_self {t : Text} (h : Stripped t) : strip t = t := by
  rw [strip, lstrip_eq_self h.1, rstrip_eq_self h.2]

theorem strip_nil : strip [] = [] := rfl

/-- The front of a text that begins with no white space is left by `rstrip`. -/
theorem head?_rstrip {t : Text} (h : ∀ c ∈ t.head?, isSpace c = false) :
    (rstrip t).head? = t.head? := by
  cases t with
  | nil => rfl
  | cons c t =>
    have hfront : rstrip (c :: t) <+: c :: t := List.rdropWhile_prefix isSpace (c :: t)
    obtain ⟨u, hu⟩ := hfront
    cases hr : rstrip (c :: t) with
    | nil =>
      have hall := List.rdropWhile_eq_nil_iff.mp hr c List.mem_cons_self
      rw [h c rfl] at hall
      cases hall
    | cons d r =>
      rw [hr, List.cons_append, List.cons.injEq] at hu
      rw [hu.1]
      rfl

theorem head?_lstrip (t : Text) : ∀ c ∈ (lstrip t).head?, isSpace c = false := by
  intro c hc
  have h := List.head?_dropWhile_not isSpace t
  rw [lstrip] at hc
  rw [Option.mem_def.mp hc] at h
  simpa using h

theorem getLast?_rstrip (t : Text) : ∀ c ∈ (rstrip t).getLast?, isSpace c = false := by
  intro c hc
  have hne : rstrip t ≠ [] := by
    intro hnil
    rw [hnil] at hc
    cases hc
  have hlast := List.rdropWhile_last_not isSpace t hne
  rw [Option.mem_def, List.getLast?_eq_some_getLast hne, Option.some.injEq] at hc
  rw [← hc]
  exact Bool.eq_false_iff.mpr hlast

theorem stripped_strip (t : Text) : Stripped (strip t) :=
  ⟨fun c hc => head?_lstrip t c (by rw [← head?_rstrip (head?_lstrip t)]; exact hc),
    getLast?_rstrip (lstrip t)⟩

theorem mem_of_mem_strip {c : Char} {t : Text} (h : c ∈ strip t) : c ∈ t :=
  (List.dropWhile_sublist isSpace).subset
    ((List.rdropWhile_prefix isSpace (lstrip t)).subset h)

/-! ## Lines -/

/-- `"\n".join(ls)` -/
def unlines (ls : List Text) : Text := List.intercalate ['\n'] ls

/-- The characters at which `str.splitlines` ends a line. -/
def isBreak (c : Char) : Bool :=
  let n := c.toNat
  decide (0x0a ≤ n ∧ n ≤ 0x0d) || decide (0x1c ≤ n ∧ n ≤ 0x1e) || n == 0x85 || n == 0x2028 ||
    n == 0x2029

/-- The lines when `c` comes before the first of them. -/
def consLine (c : Char) : List Text → List Text
  | [] => [[c]]
  | l :: ls => (c :: l) :: ls

/-- `t.splitlines()` -/
def splitLines : Text → List Text
  | [] => []
  | '\r' :: '\n' :: t => [] :: splitLines t
  | c :: t => if isBreak c then [] :: splitLines t else consLine c (splitLines t)

/-- `t.expandtabs(n)`, where the text begins in the given column. -/
def expandTabsFrom (n column : Nat) : Text → Text
  | [] => []
  | c :: t =>
    if c = '\t' then
      if 0 < n then
        List.replicate (n - column % n) ' ' ++ expandTabsFrom n (column + (n - column % n)) t
      else expandTabsFrom n column t
    else if c = '\n' ∨ c = '\r' then c :: expandTabsFrom n 0 t
    else c :: expandTabsFrom n (column + 1) t

/-- `t.expandtabs(n)` -/
def expandTabs (n : Nat) (t : Text) : Text := expandTabsFrom n 0 t

end Text

end FlsunT1.Library
