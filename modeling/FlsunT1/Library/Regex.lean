/-
  Library/Regex.lean --- regular expressions as Python's `re` matches them.

  A match is searched depth first: alternatives are tried from left to right, a repetition
  takes as much as it can, and a choice is taken back when the rest does not match.  A group
  keeps the text of its last match.  What an expression matches at all is a relation that says
  nothing of that search.
-/
import Mathlib.Order.Bounds.Basic
import FlsunT1.Library.Text

set_option autoImplicit false

namespace FlsunT1.Library

/-- Regular expressions with named groups. -/
inductive Regex (ι : Type*) where
  | eps
  | char (p : Char → Bool)
  | seq (r s : Regex ι)
  | alt (r s : Regex ι)
  | star (r : Regex ι)
  | group (i : ι) (r : Regex ι)

namespace Regex

variable {ι α : Type*}

/-- The texts that groups have matched, the newest first. -/
abbrev Groups (ι : Type*) := List (ι × Text)

/-! ## What is written with these -/

/-- `r?` -/
def opt (r : Regex ι) : Regex ι := .alt r .eps

/-- `r+` -/
def plus (r : Regex ι) : Regex ι := .seq r (.star r)

/-- Several expressions after each other. -/
def seqs : List (Regex ι) → Regex ι
  | [] => .eps
  | [r] => r
  | r :: s :: l => .seq r (seqs (s :: l))

/-- Several alternatives. -/
def alts (r : Regex ι) : List (Regex ι) → Regex ι
  | [] => r
  | s :: l => .alt r (alts s l)

/-- A character as it compares under `re.IGNORECASE`, for patterns in ASCII: besides the
capitals, the Kelvin sign, the long s and both Turkish letters i stand for an ASCII letter. -/
def foldCase (c : Char) : Char :=
  if c.toNat = 0x212a then 'k'
  else if c.toNat = 0x017f then 's'
  else if c.toNat = 0x0130 ∨ c.toNat = 0x0131 then 'i'
  else c.toLower

/-- The characters of a word, under `re.IGNORECASE`. -/
def word (w : Text) : Regex ι := seqs (w.map fun x => .char fun c => foldCase c == x)

/-- `[0-9]` -/
def isDigit (c : Char) : Bool := '0' ≤ c && c ≤ '9'

/-- The zeros of the scripts, in Unicode 14; nine more digits come after each. -/
def decimalZeros : List ℕ :=
  [0x30, 0x660, 0x6f0, 0x7c0, 0x966, 0x9e6, 0xa66, 0xae6, 0xb66, 0xbe6, 0xc66, 0xce6, 0xd66,
    0xde6, 0xe50, 0xed0, 0xf20, 0x1040, 0x1090, 0x17e0, 0x1810, 0x1946, 0x19d0, 0x1a80, 0x1a90,
    0x1b50, 0x1bb0, 0x1c40, 0x1c50, 0xa620, 0xa8d0, 0xa900, 0xa9d0, 0xa9f0, 0xaa50, 0xabf0,
    0xff10, 0x104a0, 0x10d30, 0x11066, 0x110f0, 0x11136, 0x111d0, 0x112f0, 0x11450, 0x114d0,
    0x11650, 0x116c0, 0x11730, 0x118e0, 0x11950, 0x11c50, 0x11d50, 0x11da0, 0x16a60, 0x16ac0,
    0x16b50, 0x1d7ce, 0x1d7d8, 0x1d7e2, 0x1d7ec, 0x1d7f6, 0x1e140, 0x1e2f0, 0x1e950, 0x1fbf0]

/-- `\d` in a pattern for texts -/
def isDecimal (c : Char) : Bool :=
  decimalZeros.any fun z => decide (z ≤ c.toNat ∧ c.toNat < z + 10)

/-- `[0-9]+` -/
def digits : Regex ι := plus (.char isDigit)

/-! ## The search -/

/-- `r*`: one more repetition is tried before the rest.  One that takes nothing is the last. -/
def starLoop (body : (Groups ι → Text → Option α) → Groups ι → Text → Option α)
    (rest : Groups ι → Text → Option α) : ℕ → Groups ι → Text → Option α
  | 0, g, t => rest g t
  | n + 1, g, t =>
      (body (fun g' t' =>
        if t'.length < t.length then starLoop body rest n g' t' else rest g' t') g t).or (rest g t)

/-- The search at the start of a text, with what has to match after it. -/
def search : Regex ι → (Groups ι → Text → Option α) → Groups ι → Text → Option α
  | .eps, rest, g, t => rest g t
  | .char _, _, _, [] => none
  | .char p, rest, g, c :: t => if p c then rest g t else none
  | .seq r s, rest, g, t => r.search (s.search rest) g t
  | .alt r s, rest, g, t => (r.search rest g t).or (s.search rest g t)
  | .star r, rest, g, t => starLoop r.search rest t.length g t
  | .group i r, rest, g, t =>
      r.search (fun g' t' => rest ((i, t.take (t.length - t'.length)) :: g') t') g t

/-- `$`: the end of the text, or the line break before it. -/
def atEnd (g : Groups ι) (t : Text) : Option (Groups ι) :=
  if t = [] ∨ t = ['\n'] then some g else none

/-- `re.match` with the expression `^\s*`, `r`, `\s*$`. -/
def matchLine (r : Regex ι) (t : Text) : Option (Groups ι) :=
  (seqs [.star (.char Text.isSpace), r, .star (.char Text.isSpace)]).search atEnd [] t

/-! ## What is matched -/

/-- An expression matches a text, and its groups match these. -/
inductive Matches : Regex ι → Text → Groups ι → Prop where
  | eps : Matches .eps [] []
  | char {p : Char → Bool} {c : Char} (hc : p c = true) : Matches (.char p) [c] []
  | seq {r s : Regex ι} {t u : Text} {g h : Groups ι} (hr : Matches r t g) (hs : Matches s u h) :
      Matches (.seq r s) (t ++ u) (h ++ g)
  | left {r s : Regex ι} {t : Text} {g : Groups ι} (hr : Matches r t g) : Matches (.alt r s) t g
  | right {r s : Regex ι} {t : Text} {g : Groups ι} (hs : Matches s t g) : Matches (.alt r s) t g
  | nil {r : Regex ι} : Matches (.star r) [] []
  | cons {r : Regex ι} {t u : Text} {g h : Groups ι} (hr : Matches r t g)
      (hs : Matches (.star r) u h) : Matches (.star r) (t ++ u) (h ++ g)
  | group {i : ι} {r : Regex ι} {t : Text} {g : Groups ι} (hr : Matches r t g) :
      Matches (.group i r) t ((i, t) :: g)

/-- A search finds what is matched: some start of the text, and the rest is found after it. -/
def Finds (f : (Groups ι → Text → Option α) → Groups ι → Text → Option α) (r : Regex ι) : Prop :=
  ∀ {rest : Groups ι → Text → Option α} {g : Groups ι} {t : Text} {a : α}, f rest g t = some a →
    ∃ u v h, t = u ++ v ∧ r.Matches u h ∧ rest (h ++ g) v = some a

theorem finds_starLoop {f : (Groups ι → Text → Option α) → Groups ι → Text → Option α}
    {r : Regex ι} (hf : Finds f r) (n : ℕ) :
    Finds (fun rest g t => starLoop f rest n g t) (.star r) := by
  induction n with
  | zero =>
    intro rest g t a h
    exact ⟨[], t, [], rfl, .nil, h⟩
  | succ n ih =>
    intro rest g t a h
    rcases Option.or_eq_some_iff.mp h with hbody | ⟨-, hrest⟩
    · obtain ⟨u, v, g₁, rfl, hu, hv⟩ := hf hbody
      split at hv
      · obtain ⟨w, x, g₂, rfl, hw, hx⟩ := ih hv
        refine ⟨u ++ w, x, g₂ ++ g₁, (List.append_assoc _ _ _).symm, .cons hu hw, ?_⟩
        rw [List.append_assoc]
        exact hx
      · refine ⟨u, v, g₁, rfl, ?_, hv⟩
        have hstar := Matches.cons hu .nil
        rw [List.append_nil, List.nil_append] at hstar
        exact hstar
    · exact ⟨[], t, [], rfl, .nil, hrest⟩

/-- Whatever the search finds is matched. -/
theorem finds_search (r : Regex ι) : Finds (α := α) r.search r := by
  induction r with
  | eps =>
    intro rest g t a h
    exact ⟨[], t, [], rfl, .eps, h⟩
  | char p =>
    intro rest g t a h
    cases t with
    | nil => cases h
    | cons c t =>
      unfold search at h
      split at h
      · rename_i hc
        exact ⟨[c], t, [], rfl, .char hc, h⟩
      · cases h
  | seq r s ihr ihs =>
    intro rest g t a h
    obtain ⟨u, v, g₁, rfl, hu, hv⟩ := ihr h
    obtain ⟨w, x, g₂, rfl, hw, hx⟩ := ihs hv
    refine ⟨u ++ w, x, g₂ ++ g₁, (List.append_assoc _ _ _).symm, .seq hu hw, ?_⟩
    rw [List.append_assoc]
    exact hx
  | alt r s ihr ihs =>
    intro rest g t a h
    rcases Option.or_eq_some_iff.mp h with hr | ⟨-, hs⟩
    · obtain ⟨u, v, g₁, ht, hu, hv⟩ := ihr hr
      exact ⟨u, v, g₁, ht, .left hu, hv⟩
    · obtain ⟨u, v, g₁, ht, hu, hv⟩ := ihs hs
      exact ⟨u, v, g₁, ht, .right hu, hv⟩
  | star r ih =>
    intro rest g t a h
    exact finds_starLoop ih t.length h
  | group i r ih =>
    intro rest g t a h
    obtain ⟨u, v, g₁, rfl, hu, hv⟩ := ih h
    refine ⟨u, v, (i, u) :: g₁, rfl, .group hu, ?_⟩
    rw [List.length_append, Nat.add_sub_cancel_right, List.take_left] at hv
    exact hv

/-! ## Empty texts -/

/-- The empty text is matched. -/
def nullable : Regex ι → Bool
  | .eps => true
  | .char _ => false
  | .seq r s => r.nullable && s.nullable
  | .alt r s => r.nullable || s.nullable
  | .star _ => true
  | .group _ r => r.nullable

theorem Matches.nullable {r : Regex ι} {t : Text} {g : Groups ι} (h : r.Matches t g)
    (ht : t = []) : r.nullable = true := by
  induction h with
  | eps | nil | cons => rfl
  | char => cases ht
  | seq hr hs ihr ihs =>
    obtain ⟨ht, hu⟩ := List.append_eq_nil_iff.mp ht
    unfold Regex.nullable
    rw [ihr ht, ihs hu]
    rfl
  | left hr ih =>
    unfold Regex.nullable
    rw [ih ht, Bool.true_or]
  | right hs ih =>
    unfold Regex.nullable
    rw [ih ht, Bool.or_true]
  | group hr ih => exact ih ht

/-! ## Digits -/

theorem Matches.forall_mem_star {p : Char → Bool} {r : Regex ι} {t : Text} {g : Groups ι}
    (h : r.Matches t g) (hr : r = .star (.char p)) : ∀ c ∈ t, p c = true := by
  induction h with
  | eps | char | seq | left | right | group => cases hr
  | nil => exact List.forall_mem_nil _
  | cons hr' hs ihr ihs =>
    obtain rfl := Regex.star.inj hr
    cases hr' with
    | char hc => exact List.forall_mem_cons.mpr ⟨hc, ihs rfl⟩

/-- Digits are matched. -/
theorem Matches.digits {t : Text} {g : Groups ι} (h : (digits : Regex ι).Matches t g) :
    t ≠ [] ∧ ∀ c ∈ t, isDigit c = true := by
  cases h with
  | seq hr hs =>
    cases hr with
    | char hc => exact ⟨List.cons_ne_nil _ _, List.forall_mem_cons.mpr ⟨hc, hs.forall_mem_star rfl⟩⟩

/-! ## Every match is found -/

/-- A search reaches what comes after a match, if that never fails. -/
def Reaches (f : (Groups ι → Text → Option α) → Groups ι → Text → Option α) (r : Regex ι) : Prop :=
  ∀ {rest : Groups ι → Text → Option α} {g h : Groups ι} {u v : Text}, r.Matches u h →
    (∀ g', (rest g' v).isSome = true) → (f rest g (u ++ v)).isSome = true

theorem reaches_starLoop {f : (Groups ι → Text → Option α) → Groups ι → Text → Option α}
    {r s : Regex ι} {rest : Groups ι → Text → Option α} {h : Groups ι} {u v : Text}
    (hf : Reaches f r) (hs : s = .star r) (hu : s.Matches u h)
    (hrest : ∀ g', (rest g' v).isSome = true) (n : ℕ) (hn : (u ++ v).length ≤ n) (g : Groups ι) :
    (starLoop f rest n g (u ++ v)).isSome = true := by
  induction hu generalizing n g with
  | eps | char | seq | left | right | group => cases hs
  | nil =>
    cases n with
    | zero => exact hrest g
    | succ n =>
      unfold starLoop
      rw [List.nil_append, Option.isSome_or, hrest g, Bool.or_true]
  | @cons _ t u _ _ hr _ _ ihs =>
    obtain rfl := Regex.star.inj hs
    cases t with
    | nil => exact ihs rfl n hn g
    | cons c t =>
      rw [List.append_assoc] at hn ⊢
      cases n with
      | zero => exact absurd hn (Nat.not_succ_le_zero _)
      | succ n =>
        rw [List.length_append, List.length_cons] at hn
        have hshort : (u ++ v).length < (c :: t ++ (u ++ v)).length := by
          simp only [List.length_append, List.length_cons]
          omega
        unfold starLoop
        rw [Option.isSome_or, hf hr fun g' => ?_, Bool.true_or]
        rw [if_pos hshort]
        exact ihs rfl n (by omega) g'

/-- Whatever is matched is found. -/
theorem reaches_search (r : Regex ι) : Reaches (α := α) r.search r := by
  induction r with
  | eps =>
    intro rest g h u v hu hrest
    cases hu
    exact hrest g
  | char p =>
    intro rest g h u v hu hrest
    cases hu with
    | @char _ c hc =>
      change (if p c = true then rest g v else none).isSome = true
      rw [if_pos hc]
      exact hrest g
  | seq r s ihr ihs =>
    intro rest g h u v hu hrest
    cases hu with
    | seq hr hs =>
      rw [List.append_assoc]
      exact ihr hr fun g' => ihs hs hrest
  | alt r s ihr ihs =>
    intro rest g h u v hu hrest
    unfold search
    rw [Option.isSome_or, Bool.or_eq_true]
    cases hu with
    | left hr => exact Or.inl (ihr hr hrest)
    | right hs => exact Or.inr (ihs hs hrest)
  | star r ih =>
    intro rest g h u v hu hrest
    exact reaches_starLoop ih rfl hu hrest _ le_rfl g
  | group i r ih =>
    intro rest g h u v hu hrest
    cases hu with
    | group hr => exact ih hr fun g' => hrest _

/-- The whole text is a match. -/
def Accepts (r : Regex ι) (t : Text) : Prop := ∃ g, r.Matches t g

theorem accepts_seq_iff {r s : Regex ι} {t : Text} :
    (Regex.seq r s).Accepts t ↔ ∃ u v, t = u ++ v ∧ r.Accepts u ∧ s.Accepts v := by
  constructor
  · rintro ⟨g, h⟩
    cases h with
    | seq hr hs => exact ⟨_, _, rfl, ⟨_, hr⟩, ⟨_, hs⟩⟩
  · rintro ⟨u, v, rfl, ⟨g, hr⟩, ⟨h, hs⟩⟩
    exact ⟨_, .seq hr hs⟩

theorem accepts_char_iff {p : Char → Bool} {t : Text} :
    (Regex.char p : Regex ι).Accepts t ↔ ∃ c, t = [c] ∧ p c = true := by
  constructor
  · rintro ⟨g, h⟩
    cases h with
    | char hc => exact ⟨_, rfl, hc⟩
  · rintro ⟨c, rfl, hc⟩
    exact ⟨_, .char hc⟩

theorem accepts_star_char_iff {p : Char → Bool} {t : Text} :
    (Regex.star (.char p) : Regex ι).Accepts t ↔ ∀ c ∈ t, p c = true := by
  constructor
  · rintro ⟨g, h⟩
    exact h.forall_mem_star rfl
  · intro h
    induction t with
    | nil => exact ⟨_, .nil⟩
    | cons c t ih =>
      obtain ⟨hc, ht⟩ := List.forall_mem_cons.mp h
      obtain ⟨g, hg⟩ := ih ht
      exact ⟨_, .cons (.char hc) hg⟩

theorem accepts_plus_char_iff {p : Char → Bool} {t : Text} :
    (plus (.char p) : Regex ι).Accepts t ↔ t ≠ [] ∧ ∀ c ∈ t, p c = true := by
  unfold plus
  rw [accepts_seq_iff]
  simp only [accepts_char_iff, accepts_star_char_iff]
  constructor
  · rintro ⟨_, v, rfl, ⟨c, rfl, hc⟩, hv⟩
    exact ⟨List.cons_ne_nil _ _, List.forall_mem_cons.mpr ⟨hc, hv⟩⟩
  · rintro ⟨hne, h⟩
    obtain ⟨c, v, rfl⟩ := List.exists_cons_of_ne_nil hne
    obtain ⟨hc, hv⟩ := List.forall_mem_cons.mp h
    exact ⟨[c], v, rfl, ⟨c, rfl, hc⟩, hv⟩

/-- A match starts at this place of a text. -/
def Occurs (r : Regex ι) (t : Text) (i : ℕ) : Prop :=
  ∃ a u b, t = a ++ (u ++ b) ∧ a.length = i ∧ r.Accepts u

/-- `re.search`: where the first match starts. -/
def find (r : Regex ι) : Text → Option ℕ
  | [] => if (r.search (fun _ _ => some ()) [] []).isSome then some 0 else none
  | c :: t =>
    if (r.search (fun _ _ => some ()) [] (c :: t)).isSome then some 0
    else (find r t).map (· + 1)

theorem occurs_zero_iff {r : Regex ι} {t : Text} :
    r.Occurs t 0 ↔ (r.search (fun _ _ => some ()) [] t).isSome = true := by
  constructor
  · rintro ⟨a, u, b, rfl, hlength, g, hmatch⟩
    obtain rfl := List.length_eq_zero_iff.mp hlength
    rw [List.nil_append]
    exact reaches_search r hmatch fun _ => rfl
  · intro hfound
    obtain ⟨a, ha⟩ := Option.isSome_iff_exists.mp hfound
    obtain ⟨u, v, h, rfl, hmatch, -⟩ := finds_search r ha
    exact ⟨[], u, v, rfl, rfl, h, hmatch⟩

theorem occurs_succ_iff {r : Regex ι} {c : Char} {t : Text} {i : ℕ} :
    r.Occurs (c :: t) (i + 1) ↔ r.Occurs t i := by
  constructor
  · rintro ⟨a, u, b, heq, hlength, hmatch⟩
    cases a with
    | nil => cases hlength
    | cons d a => exact ⟨a, u, b, (List.cons.inj heq).2, Nat.succ.inj hlength, hmatch⟩
  · rintro ⟨a, u, b, rfl, rfl, hmatch⟩
    exact ⟨c :: a, u, b, rfl, rfl, hmatch⟩

/-- The search finds the first place where a match starts. -/
theorem find_eq_some_iff {r : Regex ι} {t : Text} {i : ℕ} :
    r.find t = some i ↔ IsLeast {j | r.Occurs t j} i := by
  induction t generalizing i with
  | nil =>
    unfold find
    split
    case isTrue h =>
      have hleast : IsLeast {j | r.Occurs [] j} 0 := ⟨occurs_zero_iff.mpr h, fun _ _ => Nat.zero_le _⟩
      rw [Option.some_inj]
      exact ⟨fun heq => heq ▸ hleast, fun h' => hleast.unique h'⟩
    case isFalse h =>
      refine iff_of_false (Option.some_ne_none i).symm fun hleast => h ?_
      obtain ⟨a, u, b, heq, hlength, hmatch⟩ := hleast.1
      obtain ⟨rfl, -⟩ := List.append_eq_nil_iff.mp heq.symm
      exact occurs_zero_iff.mp ⟨[], u, b, heq, rfl, hmatch⟩
  | cons c t ih =>
    unfold find
    split
    case isTrue h =>
      have hleast : IsLeast {j | r.Occurs (c :: t) j} 0 :=
        ⟨occurs_zero_iff.mpr h, fun _ _ => Nat.zero_le _⟩
      rw [Option.some_inj]
      exact ⟨fun heq => heq ▸ hleast, fun h' => hleast.unique h'⟩
    case isFalse h =>
      rw [Option.map_eq_some_iff]
      constructor
      · rintro ⟨j, hj, rfl⟩
        obtain ⟨hocc, hmin⟩ := ih.mp hj
        refine ⟨occurs_succ_iff.mpr hocc, fun k hk => ?_⟩
        cases k with
        | zero => exact absurd (occurs_zero_iff.mp hk) h
        | succ k => exact Nat.succ_le_succ (hmin (occurs_succ_iff.mp hk))
      · rintro ⟨hocc, hmin⟩
        cases i with
        | zero => exact absurd (occurs_zero_iff.mp hocc) h
        | succ i =>
          refine ⟨i, ih.mpr ⟨occurs_succ_iff.mp hocc, fun k hk => ?_⟩, rfl⟩
          exact Nat.succ_le_succ_iff.mp (hmin (occurs_succ_iff.mpr hk))

/-! ## What a group has matched -/

variable [DecidableEq ι]

/-- The expressions that the groups of a name enclose. -/
def bodies (i : ι) : Regex ι → List (Regex ι)
  | .eps => []
  | .char _ => []
  | .seq r s => r.bodies i ++ s.bodies i
  | .alt r s => r.bodies i ++ s.bodies i
  | .star r => r.bodies i
  | .group j r => (if j = i then [r] else []) ++ r.bodies i

/-- The text of a group is matched by what a group of that name encloses, and what the groups
inside of it match has been kept as well. -/
theorem Matches.of_mem {r : Regex ι} {t u : Text} {g : Groups ι} {i : ι} (h : r.Matches t g)
    (hmem : (i, u) ∈ g) : ∃ s ∈ r.bodies i, ∃ g' ⊆ g, s.Matches u g' := by
  induction h with
  | eps | char | nil => cases hmem
  | seq hr hs ihr ihs =>
    rcases List.mem_append.mp hmem with hmem | hmem
    · obtain ⟨s, hs, g', hg, hm⟩ := ihs hmem
      exact ⟨s, List.mem_append_right _ hs, g', List.subset_append_of_subset_left _ hg, hm⟩
    · obtain ⟨s, hs, g', hg, hm⟩ := ihr hmem
      exact ⟨s, List.mem_append_left _ hs, g', List.subset_append_of_subset_right _ hg, hm⟩
  | left hr ih =>
    obtain ⟨s, hs, hm⟩ := ih hmem
    exact ⟨s, List.mem_append_left _ hs, hm⟩
  | right hs ih =>
    obtain ⟨s, hs, hm⟩ := ih hmem
    exact ⟨s, List.mem_append_right _ hs, hm⟩
  | cons hr hs ihr ihs =>
    rcases List.mem_append.mp hmem with hmem | hmem
    · obtain ⟨s, hs, g', hg, hm⟩ := ihs hmem
      exact ⟨s, hs, g', List.subset_append_of_subset_left _ hg, hm⟩
    · obtain ⟨s, hs, g', hg, hm⟩ := ihr hmem
      exact ⟨s, hs, g', List.subset_append_of_subset_right _ hg, hm⟩
  | @group j r t g hr ih =>
    rcases List.mem_cons.mp hmem with heq | hmem
    · obtain ⟨rfl, rfl⟩ := Prod.mk.inj heq
      refine ⟨r, List.mem_append_left _ ?_, g, List.subset_cons_self _ _, hr⟩
      rw [if_pos rfl]
      exact List.mem_singleton_self r
    · obtain ⟨s, hs, g', hg, hm⟩ := ih hmem
      exact ⟨s, List.mem_append_right _ hs, g', List.subset_cons_of_subset _ hg, hm⟩

/-- What `matchLine` leaves in a group is matched by what a group of that name encloses. -/
theorem matches_of_matchLine {r : Regex ι} {t u : Text} {g : Groups ι} {i : ι}
    (h : r.matchLine t = some g) (hu : g.lookup i = some u) :
    ∃ s ∈ r.bodies i, ∃ g' ⊆ g, s.Matches u g' := by
  obtain ⟨v, w, g', rfl, hmatch, hend⟩ := finds_search _ h
  unfold atEnd at hend
  split at hend
  · obtain rfl := Option.some.inj hend
    rw [List.append_nil] at hu ⊢
    have hmem : (i, u) ∈ g' := by
      obtain ⟨l, l', hg, -⟩ := List.lookup_eq_some_iff.mp hu
      rw [hg]
      exact List.mem_append_right _ List.mem_cons_self
    obtain ⟨s, hs, hm⟩ := hmatch.of_mem hmem
    refine ⟨s, ?_, hm⟩
    change s ∈ [] ++ (r.bodies i ++ []) at hs
    rw [List.nil_append, List.append_nil] at hs
    exact hs
  · cases hend

end Regex

end FlsunT1.Library
