/-
  Library/PosixPath.lean --- Python's `os.path` on POSIX.

  A path is a text.  What the functions make of it is described by the components
  between its slashes: a normal path is the text of components none of which is
  empty, `.` or `..`.  The front of such a text is cut at any character, not only at
  a slash, so a path whose text begins with that of a directory may lie beside it.
-/
import Mathlib.Data.List.Infix
import FlsunT1.Library.Lines
import FlsunT1.Library.Text

set_option autoImplicit false

namespace FlsunT1.Library.PosixPath

open Library

/-! ## The functions -/

def dot : Text := ['.']

def dotdot : Text := ['.', '.']

/-- A component is added to those before it; `..` takes the last of them back, but not
in front of a relative path. -/
def normStep (rooted : Bool) (comps : List Text) (comp : Text) : List Text :=
  if comp = [] ∨ comp = dot then comps
  else if comp ≠ dotdot ∨ (rooted = false ∧ comps = []) ∨ comps.getLast? = some dotdot then
    comps ++ [comp]
  else comps.dropLast

/-- The slashes in front of a path that are kept: two of them stay two, more are one. -/
def initialSlashes : Text → Nat
  | '/' :: '/' :: '/' :: _ => 1
  | '/' :: '/' :: _ => 2
  | '/' :: _ => 1
  | _ => 0

/-- `"/".join(comps)` behind some slashes. -/
def render (slashes : Nat) (comps : List Text) : Text :=
  List.replicate slashes '/' ++ List.intercalate ['/'] comps

/-- `os.path.normpath` -/
def normpath (path : Text) : Text :=
  let slashes := initialSlashes path
  let comps := (path.splitOn '/').foldl (normStep (decide (0 < slashes))) []
  let text := render slashes comps
  if text = [] then dot else text

/-- `os.path.join(a, b)` -/
def join (a b : Text) : Text :=
  if b.head? = some '/' then b
  else if a = [] ∨ a.getLast? = some '/' then a ++ b
  else a ++ '/' :: b

/-- `os.path.abspath`, for the current directory. -/
def abspath (cwd path : Text) : Text :=
  normpath (if path.head? = some '/' then path else join cwd path)

/-- What follows the last slash: `os.path.basename`. -/
def basename (path : Text) : Text := tailOf '/' path

/-- The last component in front of the dot of its extension, and the extension.  Dots in
front of the component begin none. -/
def splitName (name : Text) : Text × Text :=
  let dots := name.takeWhile (· = '.')
  let rest := name.dropWhile (· = '.')
  let stem := (rest.splitOn '.').dropLast
  if stem = [] then (name, [])
  else (dots ++ List.intercalate ['.'] stem, '.' :: tailOf '.' rest)

/-- `os.path.splitext` -/
def splitext (path : Text) : Text × Text :=
  let (stem, ext) := splitName (basename path)
  (joinLines '/' (linesOf '/' path) ++ stem, ext)

/-! ## Components -/

/-- The components of a path: what stands between its slashes. -/
def components (path : Text) : List Text := (path.splitOn '/').filter (· ≠ [])

/-- The components that are reached from `base` by way of others. -/
def resolve (base comps : List Text) : List Text := comps.foldl (normStep true) base

/-- A component of a text. -/
structure Solid (comp : Text) : Prop where
  ne_nil : comp ≠ []
  no_slash : '/' ∉ comp

/-- A component that stays what it is. -/
structure Plain (comp : Text) : Prop extends Solid comp where
  ne_dot : comp ≠ dot
  ne_dotdot : comp ≠ dotdot

/-- An absolute path without anything to normalise. -/
structure Normal (path : Text) : Prop where
  eq : ∃ slashes comps, (slashes = 1 ∨ slashes = 2) ∧ (∀ c ∈ comps, Plain c) ∧
    path = render slashes comps

/-- The path is `dir` or lies below it. -/
def Below (dir path : Text) : Prop := components dir <+: components path

instance (dir path : Text) : Decidable (Below dir path) :=
  inferInstanceAs (Decidable (components dir <+: components path))

/-- The components lead into a directory beside `base` whose name goes on where that of
`base` ends. -/
def Beside (base comps : List Text) : Prop :=
  ∃ parent name more rest, more ≠ [] ∧ base = parent ++ [name] ∧
    comps = parent ++ (name ++ more) :: rest

/-! ## Normal paths -/

theorem normStep_plain {comp : Text} (h : Plain comp) (comps : List Text) :
    normStep true comps comp = comps ++ [comp] := by
  rw [normStep, if_neg (not_or.mpr ⟨h.ne_nil, h.ne_dot⟩), if_pos (Or.inl h.ne_dotdot)]

theorem normStep_nil (rooted : Bool) (comps : List Text) : normStep rooted comps [] = comps :=
  if_pos (Or.inl rfl)

/-- Plain components stay plain ones. -/
theorem plain_normStep {comps : List Text} {comp : Text} (h : ∀ c ∈ comps, Plain c)
    (hcomp : '/' ∉ comp) : ∀ c ∈ normStep true comps comp, Plain c := by
  rw [normStep]
  split
  · exact h
  · next hsome =>
    rw [not_or] at hsome
    split
    · next hname =>
      have hdots : comps.getLast? ≠ some dotdot := fun hlast =>
        (h _ (List.mem_of_getLast? hlast)).ne_dotdot rfl
      have hne : comp ≠ dotdot := by
        rcases hname with hname | hname | hname
        · exact hname
        · cases hname.1
        · exact absurd hname hdots
      intro c hc
      rcases List.mem_append.mp hc with hc | hc
      · exact h c hc
      · rw [List.mem_singleton.mp hc]
        exact ⟨⟨hsome.1, hcomp⟩, hsome.2, hne⟩
    · exact fun c hc => h c (List.dropLast_subset _ hc)

theorem plain_resolve {base comps : List Text} (h : ∀ c ∈ base, Plain c)
    (hcomps : ∀ c ∈ comps, '/' ∉ c) : ∀ c ∈ resolve base comps, Plain c := by
  induction comps generalizing base with
  | nil => exact h
  | cons comp comps ih =>
    have hstep := plain_normStep h (hcomps comp List.mem_cons_self)
    exact ih hstep fun c hc => hcomps c (List.mem_cons_of_mem _ hc)

theorem resolve_plain {comps : List Text} (h : ∀ c ∈ comps, Plain c) (base : List Text) :
    resolve base comps = base ++ comps := by
  induction comps generalizing base with
  | nil => exact (List.append_nil base).symm
  | cons comp comps ih =>
    have hrest := ih (fun c hc => h c (List.mem_cons_of_mem _ hc)) (base ++ [comp])
    rw [List.append_assoc] at hrest
    rw [resolve, List.foldl_cons, normStep_plain (h comp List.mem_cons_self)]
    exact hrest

theorem resolve_append (base comps comps' : List Text) :
    resolve base (comps ++ comps') = resolve (resolve base comps) comps' :=
  List.foldl_append

theorem resolve_replicate_nil (base : List Text) (n : Nat) :
    resolve base (List.replicate n []) = base := by
  induction n with
  | zero => rfl
  | succ n ih =>
    rw [resolve, List.replicate_succ, List.foldl_cons, normStep_nil]
    exact ih

/-! ## The text of components -/

theorem intercalate_cons {comp : Text} {comps : List Text} (h : comps ≠ []) :
    List.intercalate ['/'] (comp :: comps) = comp ++ '/' :: List.intercalate ['/'] comps := by
  obtain ⟨next, comps, rfl⟩ := List.exists_cons_of_ne_nil h
  rw [List.intercalate_cons_cons]
  simp

theorem splitOn_intercalate {comps : List Text} (h : ∀ c ∈ comps, Solid c) (hne : comps ≠ []) :
    (List.intercalate ['/'] comps).splitOn '/' = comps :=
  List.splitOn_intercalate '/' (fun c hc => (h c hc).no_slash) hne

theorem splitOn_slashes (n : Nat) (t : Text) :
    (List.replicate n '/' ++ t).splitOn '/' = List.replicate n [] ++ t.splitOn '/' := by
  induction n with
  | zero => rfl
  | succ n ih =>
    rw [List.replicate_succ, List.cons_append, splitOn_cons, if_pos rfl, ih, List.replicate_succ,
      List.cons_append]

theorem head_intercalate {comps : List Text} (h : ∀ c ∈ comps, Solid c) :
    (List.intercalate ['/'] comps).head? ≠ some '/' := by
  cases comps with
  | nil => exact nofun
  | cons comp comps =>
    have hcomp := h comp List.mem_cons_self
    obtain ⟨c, t, rfl⟩ := List.exists_cons_of_ne_nil hcomp.ne_nil
    have hc : c ≠ '/' := fun hc => hcomp.no_slash (hc ▸ List.mem_cons_self)
    cases comps with
    | nil =>
      rw [List.intercalate_singleton, List.head?_cons]
      exact fun h => hc (Option.some.inj h)
    | cons next comps =>
      rw [intercalate_cons (List.cons_ne_nil _ _), List.cons_append, List.head?_cons]
      exact fun h => hc (Option.some.inj h)

theorem intercalate_eq_nil {comps : List Text} (h : ∀ c ∈ comps, Solid c)
    (hnil : List.intercalate ['/'] comps = []) : comps = [] := by
  by_contra hne
  have hsplit := splitOn_intercalate h hne
  rw [hnil, List.splitOn_nil] at hsplit
  exact (h [] (by rw [← hsplit]; exact List.mem_cons_self)).ne_nil rfl

/-- The last character of the text of components is no slash. -/
theorem getLast_intercalate {comps : List Text} (h : ∀ c ∈ comps, Solid c) :
    (List.intercalate ['/'] comps).getLast? ≠ some '/' := by
  induction comps with
  | nil => exact nofun
  | cons comp comps ih =>
    have hcomp := h comp List.mem_cons_self
    by_cases hnil : comps = []
    · rw [hnil, List.intercalate_singleton]
      exact fun hlast => hcomp.no_slash (List.mem_of_getLast? hlast)
    · have hrest : ∀ c ∈ comps, Solid c := fun c hc => h c (List.mem_cons_of_mem _ hc)
      have hne : List.intercalate ['/'] comps ≠ [] := fun h0 => hnil (intercalate_eq_nil hrest h0)
      rw [intercalate_cons hnil, List.getLast?_append, List.getLast?_cons_of_ne_nil hne]
      rw [List.getLast?_eq_some_getLast hne] at ih ⊢
      exact ih hrest

theorem initialSlashes_replicate {n : Nat} (hn : n = 1 ∨ n = 2) {t : Text}
    (ht : t.head? ≠ some '/') : initialSlashes (List.replicate n '/' ++ t) = n := by
  cases t with
  | nil => rcases hn with rfl | rfl <;> rfl
  | cons c t =>
    have hc : c ≠ '/' := fun hc => ht (congrArg some hc)
    rcases hn with rfl | rfl
    · rw [List.replicate_one, List.singleton_append]
      unfold initialSlashes
      split
      · next heq => exact absurd (List.cons.inj (List.cons.inj heq).2).1 hc
      · next heq => exact absurd (List.cons.inj (List.cons.inj heq).2).1 hc
      · rfl
      · next h1 h2 h3 => exact absurd rfl (h3 _)
    · simp only [List.replicate_succ, List.replicate_zero, List.cons_append, List.nil_append]
      unfold initialSlashes
      split
      · next heq => exact absurd (List.cons.inj (List.cons.inj (List.cons.inj heq).2).2).1 hc
      · rfl
      · next htwo heq => exact absurd (List.cons.inj heq).2.symm (htwo _)
      · next hone => exact absurd rfl (hone _)

theorem solid_of_plain {comps : List Text} (h : ∀ c ∈ comps, Plain c) : ∀ c ∈ comps, Solid c :=
  fun c hc => (h c hc).toSolid

theorem components_render {comps : List Text} (h : ∀ c ∈ comps, Plain c) (n : Nat) :
    components (render n comps) = comps := by
  have hkeep : comps.filter (· ≠ []) = comps :=
    List.filter_eq_self.mpr fun c hc => decide_eq_true (h c hc).ne_nil
  rw [components, render, splitOn_slashes, List.filter_append,
    List.filter_eq_nil_iff.mpr fun c hc => by simp [List.eq_of_mem_replicate hc], List.nil_append]
  by_cases hnil : comps = []
  · subst hnil
    rfl
  · rw [splitOn_intercalate (solid_of_plain h) hnil, hkeep]

theorem Normal.exists_eq {path : Text} (h : Normal path) :
    ∃ slashes, (slashes = 1 ∨ slashes = 2) ∧ (∀ c ∈ components path, Plain c) ∧
      path = render slashes (components path) := by
  obtain ⟨slashes, comps, hslashes, hcomps, rfl⟩ := h.eq
  rw [components_render hcomps]
  exact ⟨slashes, hslashes, hcomps, rfl⟩

/-- A path is normalised by its components. -/
theorem normpath_absolute {path : Text} {n : Nat} (hn : n = 1 ∨ n = 2)
    (hslashes : initialSlashes path = n) :
    normpath path = render n (resolve [] (path.splitOn '/')) := by
  have hpos : 0 < n := by omega
  rw [normpath, hslashes, decide_eq_true hpos]
  refine if_neg fun hnil => ?_
  have hlen := congrArg List.length (List.append_eq_nil_iff.mp hnil).1
  rw [List.length_replicate, List.length_nil] at hlen
  omega

theorem initialSlashes_absolute {path : Text} (h : path.head? = some '/') :
    initialSlashes path = 1 ∨ initialSlashes path = 2 := by
  obtain ⟨t, rfl⟩ : ∃ t, path = '/' :: t := by
    cases path with
    | nil => cases h
    | cons c t => exact ⟨t, by rw [Option.some.inj h]⟩
  unfold initialSlashes
  split
  · exact Or.inl rfl
  · exact Or.inr rfl
  · exact Or.inl rfl
  · next hnot => exact absurd rfl (hnot t)

theorem normal_normpath {path : Text} (h : path.head? = some '/') : Normal (normpath path) := by
  have hn := initialSlashes_absolute h
  refine ⟨initialSlashes path, resolve [] (path.splitOn '/'), hn, ?_, normpath_absolute hn rfl⟩
  refine plain_resolve (fun c hc => absurd hc List.not_mem_nil) fun c hc => ?_
  exact not_mem_of_mem_splitOn hc

theorem normal_abspath {cwd : Text} (hcwd : cwd.head? = some '/') (path : Text) :
    Normal (abspath cwd path) := by
  rw [abspath]
  split
  · next h => exact normal_normpath h
  · refine normal_normpath ?_
    have hne : cwd ≠ [] := by
      rintro rfl
      cases hcwd
    rw [join, if_neg (by assumption)]
    split
    · rw [List.head?_append_of_ne_nil _ hne, hcwd]
    · rw [List.head?_append_of_ne_nil _ hne, hcwd]

/-! ## Relative paths -/

/-- Normal components: `..` stands in front of the others only. -/
def DotsFirst (comps : List Text) : Prop :=
  ∃ k plain, comps = List.replicate k dotdot ++ plain ∧ ∀ c ∈ plain, Plain c

theorem DotsFirst.normStep {comps : List Text} {comp : Text} (h : DotsFirst comps)
    (hcomp : '/' ∉ comp) (rooted : Bool) : DotsFirst (normStep rooted comps comp) := by
  obtain ⟨k, plain, rfl, hplain⟩ := h
  rw [PosixPath.normStep]
  split
  · exact ⟨k, plain, rfl, hplain⟩
  · next hsome =>
    rw [not_or] at hsome
    split
    · next hname =>
      by_cases hdots : comp = dotdot
      · -- another `..`: nothing else is in front of it
        have hnil : plain = [] := by
          rcases hname with hne | ⟨-, hnil⟩ | hlast
          · exact absurd hdots hne
          · exact (List.append_eq_nil_iff.mp hnil).2
          · by_contra hne
            rw [List.getLast?_append_of_ne_nil _ hne] at hlast
            exact (hplain _ (List.mem_of_getLast? hlast)).ne_dotdot rfl
        subst hnil hdots
        exact ⟨k + 1, [], by rw [List.append_nil, List.append_nil, List.replicate_succ'],
          fun c hc => absurd hc List.not_mem_nil⟩
      · refine ⟨k, plain ++ [comp], List.append_assoc .., fun c hc => ?_⟩
        rcases List.mem_append.mp hc with hc | hc
        · exact hplain c hc
        · rw [List.mem_singleton.mp hc]
          exact ⟨⟨hsome.1, hcomp⟩, hsome.2, hdots⟩
    · by_cases hnil : plain = []
      · subst hnil
        refine ⟨k - 1, [], ?_, fun c hc => absurd hc List.not_mem_nil⟩
        rw [List.append_nil, List.append_nil, List.dropLast_replicate]
      · rw [List.dropLast_append_of_ne_nil hnil]
        exact ⟨k, plain.dropLast, rfl, fun c hc => hplain c (List.dropLast_subset _ hc)⟩

theorem DotsFirst.solid {comps : List Text} (h : DotsFirst comps) : ∀ c ∈ comps, Solid c := by
  obtain ⟨k, plain, rfl, hplain⟩ := h
  intro c hc
  rcases List.mem_append.mp hc with hc | hc
  · rw [List.eq_of_mem_replicate hc]
    exact ⟨by decide, by decide⟩
  · exact (hplain c hc).toSolid

/-- What is normalised has its components, or is the text of none. -/
theorem normpath_cases (path : Text) :
    ∃ slashes comps, DotsFirst comps ∧ normpath path =
      if render slashes comps = [] then dot else render slashes comps := by
  refine ⟨initialSlashes path, _, ?_, rfl⟩
  have hpieces : ∀ c ∈ path.splitOn '/', '/' ∉ c := fun c hc => not_mem_of_mem_splitOn hc
  generalize path.splitOn '/' = pieces at hpieces
  have hnil : DotsFirst [] := ⟨0, [], rfl, fun c hc => absurd hc List.not_mem_nil⟩
  generalize ([] : List Text) = comps at hnil
  induction pieces generalizing comps with
  | nil => exact hnil
  | cons piece pieces ih =>
    exact ih (fun c hc => hpieces c (List.mem_cons_of_mem _ hc)) _
      (hnil.normStep (hpieces piece List.mem_cons_self) _)

/-- What is joined to a normal path is resolved from there. -/
theorem abspath_join {dir rel : Text} (cwd : Text) (hdir : Normal dir) (hrel : rel.head? ≠ some '/') :
    ∃ slashes, (slashes = 1 ∨ slashes = 2) ∧ dir = render slashes (components dir) ∧
      abspath cwd (join dir rel) =
        render slashes (resolve (components dir) (rel.splitOn '/')) := by
  obtain ⟨n, hn, hplain, hdir⟩ := hdir.exists_eq
  refine ⟨n, hn, hdir, ?_⟩
  generalize components dir = comps at hplain hdir
  subst hdir
  obtain ⟨m, rfl⟩ : ∃ m, n = m + 1 := ⟨n - 1, by omega⟩
  by_cases hnil : comps = []
  · -- the root directory: its text ends with a slash
    subst hnil
    have hroot : render (m + 1) [] = List.replicate (m + 1) '/' := List.append_nil _
    have hlast : (List.replicate (m + 1) '/').getLast? = some '/' := by
      rw [List.replicate_succ', List.getLast?_concat]
    have hjoin : join (render (m + 1) []) rel = List.replicate (m + 1) '/' ++ rel := by
      rw [join, if_neg hrel, hroot, if_pos (Or.inr hlast)]
    have habs : (List.replicate (m + 1) '/' ++ rel).head? = some '/' := rfl
    rw [abspath, hjoin, if_pos habs,
      normpath_absolute hn (initialSlashes_replicate hn hrel), splitOn_slashes, resolve_append,
      resolve_replicate_nil]
  · have hinter : List.intercalate ['/'] comps ≠ [] :=
      fun h0 => hnil (intercalate_eq_nil (solid_of_plain hplain) h0)
    have hlast : ¬(render (m + 1) comps = [] ∨ (render (m + 1) comps).getLast? = some '/') := by
      rw [render, List.getLast?_append_of_ne_nil _ hinter, not_or]
      exact ⟨fun h => hinter (List.append_eq_nil_iff.mp h).2, getLast_intercalate (solid_of_plain hplain)⟩
    have hjoin : join (render (m + 1) comps) rel =
        List.replicate (m + 1) '/' ++ (List.intercalate ['/'] comps ++ '/' :: rel) := by
      rw [join, if_neg hrel, if_neg hlast, render, List.append_assoc]
    have hhead : (List.intercalate ['/'] comps ++ '/' :: rel).head? ≠ some '/' := by
      rw [List.head?_append_of_ne_nil _ hinter]
      exact head_intercalate (solid_of_plain hplain)
    have habs : (List.replicate (m + 1) '/' ++
        (List.intercalate ['/'] comps ++ '/' :: rel)).head? = some '/' := rfl
    rw [abspath, hjoin, if_pos habs,
      normpath_absolute hn (initialSlashes_replicate hn hhead), splitOn_slashes, resolve_append,
      resolve_replicate_nil, List.splitOn_append_cons_self, splitOn_intercalate (solid_of_plain hplain) hnil,
      resolve_append, resolve_plain hplain, List.nil_append]

/-! ## The front of a path -/

theorem prefix_of_no_slash {a b u : Text} (ha : '/' ∉ a) (h : a <+: b ++ '/' :: u) : a <+: b := by
  induction a generalizing b with
  | nil => exact List.nil_prefix
  | cons c a ih =>
    rw [List.mem_cons, not_or] at ha
    cases b with
    | nil => exact absurd (List.cons_prefix_cons.mp h).1.symm ha.1
    | cons d b =>
      rw [List.cons_append, List.cons_prefix_cons] at h
      exact List.cons_prefix_cons.mpr ⟨h.1, ih ha.2 h.2⟩

/-- Two texts agree on their first component and behind it. -/
theorem slash_prefix_slash {a b u v : Text} (ha : '/' ∉ a) (hb : '/' ∉ b) :
    a ++ '/' :: u <+: b ++ '/' :: v ↔ a = b ∧ u <+: v := by
  induction a generalizing b with
  | nil =>
    cases b with
    | nil => simp
    | cons d b =>
      rw [List.mem_cons, not_or] at hb
      rw [List.cons_append, List.nil_append, List.cons_prefix_cons]
      exact iff_of_false (fun h => hb.1 h.1) (fun h => List.cons_ne_nil _ _ h.1.symm)
  | cons c a ih =>
    rw [List.mem_cons, not_or] at ha
    cases b with
    | nil =>
      rw [List.cons_append, List.nil_append, List.cons_prefix_cons]
      exact iff_of_false (fun h => ha.1 h.1.symm) (fun h => List.cons_ne_nil _ _ h.1)
    | cons d b =>
      rw [List.mem_cons, not_or] at hb
      rw [List.cons_append, List.cons_append, List.cons_prefix_cons, ih ha.2 hb.2, List.cons.injEq,
        and_assoc]

theorem Beside.singleton {name first : Text} {rest : List Text} :
    Beside [name] (first :: rest) ↔ name <+: first ∧ first ≠ name := by
  constructor
  · rintro ⟨parent, name', more, rest', hmore, hbase, hcomps⟩
    cases parent with
    | nil =>
      obtain rfl := (List.cons.inj hbase).1
      obtain rfl := (List.cons.inj hcomps).1
      exact ⟨List.prefix_append _ _, fun h => hmore (List.append_right_eq_self.mp h)⟩
    | cons c parent =>
      have hlen := congrArg List.length hbase
      simp at hlen
  · rintro ⟨⟨more, rfl⟩, hne⟩
    exact ⟨[], name, more, rest, fun h => hne (by rw [h, List.append_nil]), rfl, rfl⟩

theorem Beside.cons {comp next first : Text} {base rest : List Text} :
    Beside (comp :: next :: base) (first :: rest) ↔ comp = first ∧ Beside (next :: base) rest := by
  constructor
  · rintro ⟨parent, name, more, rest', hmore, hbase, hcomps⟩
    cases parent with
    | nil => exact absurd (List.cons.inj hbase).2 (List.cons_ne_nil _ _)
    | cons c parent =>
      obtain ⟨hcomp, hbase⟩ := List.cons.inj hbase
      obtain ⟨hfirst, hcomps⟩ := List.cons.inj hcomps
      exact ⟨hcomp.trans hfirst.symm, parent, name, more, rest', hmore, hbase, hcomps⟩
  · rintro ⟨rfl, parent, name, more, rest', hmore, hbase, hcomps⟩
    exact ⟨comp :: parent, name, more, rest', hmore, by rw [hbase]; rfl, by rw [hcomps]; rfl⟩

theorem Beside.not_nil {base : List Text} : ¬ Beside base [] := by
  rintro ⟨parent, name, more, rest, -, -, hcomps⟩
  exact absurd hcomps (List.append_ne_nil_of_right_ne_nil _ (List.cons_ne_nil _ _)).symm

/-- What the text of components tells by its front: the path is the other one or below it, or
beside it. -/
theorem intercalate_prefix {base : List Text} : ∀ {comps : List Text}, (∀ c ∈ base, Plain c) →
    (∀ c ∈ comps, Plain c) →
    (List.intercalate ['/'] base <+: List.intercalate ['/'] comps ↔
      base <+: comps ∨ Beside base comps) := by
  induction base with
  | nil =>
    intro comps _ _
    exact iff_of_true List.nil_prefix (Or.inl List.nil_prefix)
  | cons name base ih =>
    intro comps hbase hcomps
    have hname := hbase name List.mem_cons_self
    cases comps with
    | nil =>
      have hnot : ¬ List.intercalate ['/'] (name :: base) <+: [] := fun h =>
        List.cons_ne_nil _ _ (intercalate_eq_nil (solid_of_plain hbase) (List.prefix_nil.mp h))
      exact iff_of_false hnot (not_or.mpr ⟨fun h => List.cons_ne_nil _ _ (List.prefix_nil.mp h),
        Beside.not_nil⟩)
    | cons first rest =>
      have hfirst := hcomps first List.mem_cons_self
      cases base with
      | nil =>
        -- the last component of the front: it may go on in the other path
        rw [List.intercalate_singleton, Beside.singleton, List.cons_prefix_cons]
        have hfront : name <+: List.intercalate ['/'] (first :: rest) ↔ name <+: first := by
          by_cases hrest : rest = []
          · rw [hrest, List.intercalate_singleton]
          · rw [intercalate_cons hrest]
            exact ⟨prefix_of_no_slash hname.no_slash, fun h => h.trans (List.prefix_append _ _)⟩
        rw [hfront]
        constructor
        · intro h
          by_cases hsame : first = name
          · exact Or.inl ⟨hsame.symm, List.nil_prefix⟩
          · exact Or.inr ⟨h, hsame⟩
        · rintro (⟨rfl, -⟩ | ⟨h, -⟩)
          · exact List.prefix_rfl
          · exact h
      | cons next base =>
        have hrest : ∀ c ∈ rest, Plain c := fun c hc => hcomps c (List.mem_cons_of_mem _ hc)
        rw [intercalate_cons (List.cons_ne_nil _ _), Beside.cons, List.cons_prefix_cons,
          ← and_or_left, ← ih (fun c hc => hbase c (List.mem_cons_of_mem _ hc)) hrest]
        by_cases hnil : rest = []
        · -- the other path has no further slash
          rw [hnil, List.intercalate_singleton]
          refine iff_of_false (fun h => ?_) fun h => ?_
          · exact hfirst.no_slash (h.subset (List.mem_append_right _ List.mem_cons_self))
          · have hnext := List.prefix_nil.mp h.2
            exact List.cons_ne_nil _ _
              (intercalate_eq_nil (fun c hc => (hbase c (List.mem_cons_of_mem _ hc)).toSolid) hnext)
        · rw [intercalate_cons hnil]
          exact slash_prefix_slash hname.no_slash hfirst.no_slash

/-- A path begins with the text of a directory when it is below it, or beside it in one
whose name goes on. -/
theorem render_prefix {n : Nat} {base comps : List Text} (hbase : ∀ c ∈ base, Plain c)
    (hcomps : ∀ c ∈ comps, Plain c) :
    render n base <+: render n comps ↔ base <+: comps ∨ Beside base comps := by
  rw [render, render, List.prefix_append_right_inj, intercalate_prefix hbase hcomps]

theorem not_prefix_of_beside {base comps : List Text} (h : Beside base comps) :
    ¬ base <+: comps := by
  obtain ⟨parent, name, more, rest, hmore, rfl, rfl⟩ := h
  rw [List.prefix_append_right_inj, List.cons_prefix_cons]
  rintro ⟨hname, -⟩
  exact hmore (List.append_right_eq_self.mp hname.symm)

/-! ## The extension of a path -/

theorem joinLines_concat_eq (comps : List Text) (last : Text) :
    joinLines '/' comps ++ last = List.intercalate ['/'] (comps ++ [last]) := by
  induction comps with
  | nil => rw [joinLines_nil, List.nil_append, List.nil_append, List.intercalate_singleton]
  | cons comp comps ih =>
    rw [joinLines_cons, List.cons_append, intercalate_cons (List.concat_ne_nil _ _), ← ih,
      List.append_assoc, List.cons_append]

theorem joinLines_replicate (n : Nat) :
    joinLines '/' (List.replicate n ([] : Text)) = List.replicate n '/' := by
  induction n with
  | zero => rfl
  | succ n ih => rw [List.replicate_succ, joinLines_cons, ih, List.replicate_succ, List.nil_append]

theorem splitOn_render {n : Nat} {comps : List Text} {last : Text}
    (h : ∀ c ∈ comps ++ [last], Plain c) :
    (render n (comps ++ [last])).splitOn '/' = List.replicate n [] ++ comps ++ [last] := by
  rw [render, splitOn_slashes, splitOn_intercalate (solid_of_plain h) (List.concat_ne_nil _ _),
    List.append_assoc]

theorem basename_render {n : Nat} {comps : List Text} {last : Text}
    (h : ∀ c ∈ comps ++ [last], Plain c) : basename (render n (comps ++ [last])) = last := by
  rw [basename, tailOf, splitOn_render h, List.getLastD_concat]

/-- The extension is taken from the last component. -/
theorem splitext_render {n : Nat} {comps : List Text} {last : Text}
    (h : ∀ c ∈ comps ++ [last], Plain c) :
    splitext (render n (comps ++ [last])) =
      (render n (comps ++ [(splitName last).1]), (splitName last).2) := by
  rw [splitext, basename_render h, linesOf, splitOn_render h, List.dropLast_concat,
    joinLines_append, joinLines_replicate]
  simp only [List.append_assoc, joinLines_concat_eq, render]

theorem splitext_render_nil (n : Nat) : splitext (render n []) = (render n [], []) := by
  have hsplit : (render n []).splitOn '/' = List.replicate n [] ++ [[]] := by
    rw [render, splitOn_slashes]
    rfl
  rw [splitext, basename, tailOf, linesOf, hsplit, List.getLastD_concat, List.dropLast_concat,
    joinLines_replicate]
  rfl

theorem intercalate_concat {sep : Char} {pieces : List Text} {last : Text} (h : pieces ≠ []) :
    List.intercalate [sep] (pieces ++ [last]) = List.intercalate [sep] pieces ++ sep :: last := by
  induction pieces with
  | nil => exact absurd rfl h
  | cons piece pieces ih =>
    cases pieces with
    | nil => simp [List.intercalate_cons_cons]
    | cons next pieces =>
      have hrest := ih (List.cons_ne_nil _ _)
      rw [List.cons_append, List.cons_append, List.intercalate_cons_cons, ← List.cons_append, hrest,
        List.intercalate_cons_cons]
      simp only [List.append_assoc]

/-- A name is its stem and its extension. -/
theorem splitName_append (name : Text) : (splitName name).1 ++ (splitName name).2 = name := by
  rw [splitName]
  split
  · exact List.append_nil name
  · next hstem =>
    have hrest : List.intercalate ['.'] ((name.dropWhile (· = '.')).splitOn '.') =
        name.dropWhile (· = '.') := List.intercalate_splitOn '.'
    rw [splitOn_eq, linesOf] at hrest
    rw [intercalate_concat hstem] at hrest
    dsimp only
    rw [List.append_assoc, hrest, List.takeWhile_append_dropWhile]

theorem no_slash_stem {name : Text} (h : '/' ∉ name) : '/' ∉ (splitName name).1 := by
  rw [← splitName_append name] at h
  exact fun hmem => h (List.mem_append_left _ hmem)

/-- An extension is put behind the last component. -/
theorem render_concat_append (n : Nat) (comps : List Text) (stem ext : Text) :
    render n (comps ++ [stem]) ++ ext = render n (comps ++ [stem ++ ext]) := by
  simp only [render, ← joinLines_concat_eq, List.append_assoc]

end FlsunT1.Library.PosixPath
