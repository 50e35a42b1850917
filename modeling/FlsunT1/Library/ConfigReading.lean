/-
  Library/ConfigReading.lean --- what a configuration parser has read.

  The lines of a value have no white space at their ends, and none but the first
  begins like a comment.  A name is in lower case and has no delimiter.  Written
  behind each other, a name and a value are no section header.
-/
import FlsunT1.Library.ConfigParser

set_option autoImplicit false

namespace FlsunT1.Library

open Text

/-! ## Texts and their lines -/

namespace Text

theorem unlines_singleton (l : Text) : unlines [l] = l := List.intercalate_singleton

theorem unlines_cons {ls : List Text} (l : Text) (h : ls ≠ []) :
    unlines (l :: ls) = l ++ '\n' :: unlines ls := by
  obtain ⟨l', ls, rfl⟩ := List.exists_cons_of_ne_nil h
  simp [unlines, List.intercalate, List.intersperse]

theorem unlines_concat {ls : List Text} (l : Text) (h : ls ≠ []) :
    unlines (ls ++ [l]) = unlines ls ++ '\n' :: l := by
  induction ls with
  | nil => exact absurd rfl h
  | cons l' ls ih =>
    cases ls with
    | nil => rw [List.singleton_append, unlines_cons _ (List.cons_ne_nil _ _), unlines_singleton,
        unlines_singleton]
    | cons l'' ls =>
      rw [List.cons_append, unlines_cons _ (by simp), ih (List.cons_ne_nil _ _),
        unlines_cons _ (List.cons_ne_nil _ _), List.append_assoc, List.cons_append]

theorem splitOn_unlines {ls : List Text} (hne : ls ≠ []) (h : ∀ l ∈ ls, '\n' ∉ l) :
    (unlines ls).splitOn '\n' = ls := List.splitOn_intercalate '\n' h hne

/-- A line behind the last one that is empty is white space at the end. -/
theorem rstrip_unlines_concat_nil {ls : List Text} (h : ls ≠ []) :
    rstrip (unlines (ls ++ [[]])) = rstrip (unlines ls) := by
  rw [unlines_concat _ h, rstrip, List.rdropWhile_concat_pos _ _ _ (by decide), rstrip]

theorem rstrip_unlines_concat {ls : List Text} {l : Text} (hl : Stripped l) (hne : l ≠ []) :
    rstrip (unlines (ls ++ [l])) = unlines (ls ++ [l]) := by
  apply rstrip_eq_self
  intro c hc
  apply hl.2 c
  rw [List.getLast?_eq_some_getLast hne]
  by_cases hls : ls = []
  · subst hls
    rw [List.nil_append, unlines_singleton, List.getLast?_eq_some_getLast hne] at hc
    exact hc
  · rw [unlines_concat _ hls, List.getLast?_append, List.getLast?_cons,
      List.getLast?_eq_some_getLast hne] at hc
    exact hc

/-- White space is taken off the end of lines by leaving out the last ones that are empty. -/
theorem rstrip_unlines {ls : List Text} (hne : ls ≠ []) (h : ∀ l ∈ ls, Stripped l) :
    ∃ front, front ≠ [] ∧ front <+: ls ∧ rstrip (unlines ls) = unlines front ∧
      (front.tail ≠ [] → front.getLast? ≠ some []) := by
  induction ls using List.reverseRecOn with
  | nil => exact absurd rfl hne
  | append_singleton ls l ih =>
    have hl : Stripped l := h l (List.mem_append_right _ List.mem_cons_self)
    by_cases hempty : l = []
    · by_cases hls : ls = []
      · subst hls hempty
        exact ⟨[[]], List.cons_ne_nil _ _, List.prefix_rfl, rfl, fun h => absurd rfl h⟩
      · obtain ⟨front, hfront, hpart, heq, hlast⟩ :=
          ih hls fun l' hl' => h l' (List.mem_append_left _ hl')
        refine ⟨front, hfront, hpart.trans (List.prefix_append _ _), ?_, hlast⟩
        rw [hempty, rstrip_unlines_concat_nil hls, heq]
    · refine ⟨ls ++ [l], by simp, List.prefix_rfl, rstrip_unlines_concat hl hempty, fun _ => ?_⟩
      rw [List.getLast?_concat, ne_eq, Option.some.injEq]
      exact hempty

end Text

/-! ## What can be written -/

/-- A name of an option that the parser can have read. -/
structure NameOk (f : ConfigFormat) (k : Text) : Prop where
  ne : k ≠ []
  stripped : Stripped k
  plain : ∀ c ∈ k, isDelimiter c = false ∧ c ≠ '\n'
  not_comment : isComment k = false
  lowered : f.optionxform k = k

/-- Lines of a value that can be written behind the name `k` and read back. -/
structure LinesOk (f : ConfigFormat) (k : Text) (ls : List Text) : Prop where
  name : NameOk f k
  ne : ls ≠ []
  stripped : ∀ l ∈ ls, Stripped l
  single : ∀ l ∈ ls, '\n' ∉ l
  not_comment : ∀ l ∈ ls.tail, isComment l = false
  not_header : k.head? = some '[' → ']' ∉ k.tail.tail ∧ ∀ l ∈ ls.head?, ']' ∉ l

/-- A value that can be written and read back. -/
def ValueOk (f : ConfigFormat) (k v : Text) : Prop :=
  ∃ ls, LinesOk f k ls ∧ v = unlines ls ∧ (ls.tail ≠ [] → ls.getLast? ≠ some [])

/-- A value that is read, and can be written when it is joined. -/
def EntryOk (f : ConfigFormat) (k : Text) : Entry → Prop
  | .text t => ValueOk f k t
  | .lines ls => LinesOk f k ls

theorem EntryOk.join {f : ConfigFormat} {k : Text} {e : Entry} (h : EntryOk f k e) :
    ValueOk f k e.join := by
  cases e with
  | text t => exact h
  | lines ls =>
    have hls : LinesOk f k ls := h
    obtain ⟨front, hne, hfront, heq, hlast⟩ := rstrip_unlines hls.ne hls.stripped
    obtain ⟨rest, hrest⟩ := hfront
    obtain ⟨l, front, rfl⟩ := List.exists_cons_of_ne_nil hne
    refine ⟨l :: front, ⟨hls.name, hne, ?_, ?_, ?_, ?_⟩, heq, hlast⟩
    · exact fun l' hl' => hls.stripped l' (hrest ▸ List.mem_append_left _ hl')
    · exact fun l' hl' => hls.single l' (hrest ▸ List.mem_append_left _ hl')
    · intro l' hl'
      apply hls.not_comment l'
      rw [← hrest]
      exact List.mem_append_left _ hl'
    · intro hk
      refine ⟨(hls.not_header hk).1, fun l' hl' => (hls.not_header hk).2 l' ?_⟩
      rw [← hrest]
      exact hl'

/-- Each option has the property `P`, and each section a name that can be written. -/
structure Sections.All {β : Type} (P : Text → β → Prop) (p : Sections β) : Prop where
  default : ∀ k v, p.defaults.get k = some v → P k v
  option : ∀ s d, p.sections.get s = some d → ∀ k v, d.get k = some v → P k v
  named : ∀ s d, p.sections.get s = some d → s ≠ [] ∧ '\n' ∉ s ∧ s ≠ defaultSection

namespace Sections.All

variable {β γ : Type} {P : Text → β → Prop} {Q : Text → γ → Prop} {p : Sections β}

theorem empty : (Sections.empty : Sections β).All P :=
  ⟨fun _ _ h => (nomatch h), fun _ _ h => (nomatch h), fun _ _ h => (nomatch h)⟩

theorem map {g : β → γ} (h : p.All P) (hg : ∀ k v, P k v → Q k (g v)) : (p.map g).All Q := by
  have hdict : ∀ d : Dict Text β, (∀ k v, d.get k = some v → P k v) →
      ∀ k w, (d.mapVals g).get k = some w → Q k w := by
    intro d hd k w hw
    rw [Dict.get_mapVals, Option.map_eq_some_iff] at hw
    obtain ⟨v, hv, rfl⟩ := hw
    exact hg k v (hd k v hv)
  refine ⟨hdict p.defaults h.default, fun s d hd => ?_, fun s d hd => ?_⟩
  all_goals
    rw [Sections.map, Dict.get_mapVals, Option.map_eq_some_iff] at hd
    obtain ⟨d', hd', rfl⟩ := hd
  · exact hdict d' (h.option s d' hd')
  · exact h.named s d' hd'

/-- A change of the options of a section keeps what it keeps in each dictionary. -/
theorem modify {s : Text} {g : Dict Text β → Dict Text β} (h : p.All P)
    (hg : ∀ d, (∀ k v, d.get k = some v → P k v) → ∀ k v, (g d).get k = some v → P k v) :
    (p.modify s g).All P := by
  rw [Sections.modify]
  cases hs : p.sections.get s with
  | none => exact ⟨hg _ h.default, h.option, h.named⟩
  | some d =>
    refine ⟨h.default, fun s' d' hd' => ?_, fun s' d' hd' => ?_⟩
    all_goals
      rw [Dict.get_set] at hd'
      split at hd'
    · cases hd'
      exact hg d (h.option s d hs)
    · exact h.option s' d' hd'
    · rename_i heq
      exact heq ▸ h.named s d hs
    · exact h.named s' d' hd'

end Sections.All

/-! ## Headers and options -/

theorem mem_of_headerOf {t s : Text} (h : headerOf t = some s) {c : Char} (hc : c ∈ s) : c ∈ t := by
  unfold headerOf at h
  split at h
  · rename_i t
    split at h
    · cases h
    · rename_i hname
      rw [Option.some.injEq] at h
      subst h
      have hdrop := (List.dropLast_prefix _).subset hc
      exact List.mem_cons_of_mem _ ((List.rdropWhile_prefix _ t).subset hdrop)
  · cases h

theorem ne_nil_of_headerOf {t s : Text} (h : headerOf t = some s) : s ≠ [] := by
  unfold headerOf at h
  split at h
  · split at h
    · cases h
    · rename_i hname
      rw [Option.some.injEq] at h
      exact h ▸ hname
  · cases h

theorem headerOf_bracket {s : Text} (h : s ≠ []) : headerOf ('[' :: (s ++ [']'])) = some s := by
  have hkeep : (s ++ [']']).rdropWhile (· ≠ ']') = s ++ [']'] :=
    List.rdropWhile_concat_neg _ _ _ (by decide)
  unfold headerOf
  simp only [hkeep, List.dropLast_concat]

/-- A text is no header when no bracket closes behind its second character. -/
theorem headerOf_eq_none_iff {t : Text} :
    headerOf t = none ↔ (t.head? = some '[' → ']' ∉ t.tail.tail) := by
  cases t with
  | nil => exact iff_of_true rfl (fun h => nomatch h)
  | cons c t =>
    by_cases hc : c = '['
    · subst hc
      have hsplit := List.rdropWhile_append_rtakeWhile (p := (· ≠ ']')) (l := t)
      have hdropped : ']' ∉ t.rtakeWhile (· ≠ ']') := by
        intro hmem
        have := List.mem_rtakeWhile_imp hmem
        simp at this
      have hlast : ∀ hne : t.rdropWhile (· ≠ ']') ≠ [], (t.rdropWhile (· ≠ ']')).getLast hne = ']' := by
        intro hne
        have := List.rdropWhile_last_not (· ≠ ']') t hne
        simpa using this
      have hdef : headerOf ('[' :: t) = none ↔ (t.rdropWhile (· ≠ ']')).dropLast = [] := by
        simp only [headerOf]
        split
        · rename_i hnil
          exact iff_of_true rfl hnil
        · rename_i hnil
          exact iff_of_false (fun h => nomatch h) hnil
      rw [hdef]
      simp only [List.head?_cons, List.tail_cons, true_imp_iff]
      cases hr : t.rdropWhile (· ≠ ']') with
      | nil =>
        rw [hr, List.nil_append] at hsplit
        rw [hsplit] at hdropped
        exact iff_of_true rfl fun hmem => hdropped (List.mem_of_mem_tail hmem)
      | cons d r =>
        rw [hr, List.cons_append] at hsplit
        rw [← hsplit, List.tail_cons]
        cases r with
        | nil => exact iff_of_true rfl hdropped
        | cons e r =>
          refine iff_of_false (by simp) fun hmem => hmem (List.mem_append_left _ ?_)
          have h := hlast (by rw [hr]; exact List.cons_ne_nil _ _)
          simp only [hr, List.getLast_cons_cons] at h
          exact h ▸ List.getLast_mem _
    · refine iff_of_true ?_ fun h => absurd (Option.some.inj h) hc
      unfold headerOf
      split
      · rename_i heq
        exact absurd (List.cons.inj heq).1 hc
      · rfl

/-- What is before and behind the delimiter of an option. -/
theorem optionOf_eq_some {value name v : Text} (h : optionOf value = some (name, v)) :
    ∃ before d rest, value = before ++ d :: rest ∧ isDelimiter d = true ∧
      (∀ c ∈ before, isDelimiter c = false) ∧ name = rstrip before ∧ v = strip rest := by
  rw [optionOf] at h
  cases hrest : value.dropWhile (!isDelimiter ·) with
  | nil =>
    rw [hrest] at h
    cases h
  | cons d rest =>
    rw [hrest, Option.some.injEq, Prod.mk.injEq] at h
    refine ⟨value.takeWhile (!isDelimiter ·), d, rest, ?_, ?_, ?_, h.1.symm, h.2.symm⟩
    · rw [← hrest, List.takeWhile_append_dropWhile]
    · have hnot := List.head?_dropWhile_not (!isDelimiter ·) value
      rw [hrest] at hnot
      simpa using hnot
    · intro c hc
      have := List.mem_takeWhile_imp hc
      simpa using this

theorem optionOf_line {k : Text} (hk : Stripped k) (hplain : ∀ c ∈ k, isDelimiter c = false)
    (t : Text) : optionOf (k ++ ' ' :: '=' :: t) = some (k, strip t) := by
  have hall : ∀ c ∈ k ++ [' '], (!isDelimiter c) = true := by
    intro c hc
    rcases List.mem_append.mp hc with hc | hc
    · rw [hplain c hc]
      rfl
    · rw [List.mem_singleton.mp hc]
      rfl
  have hshape : k ++ ' ' :: '=' :: t = (k ++ [' ']) ++ '=' :: t := by
    rw [List.append_assoc, List.singleton_append]
  rw [optionOf, hshape, List.dropWhile_append_of_pos hall, List.takeWhile_append_of_pos hall]
  have hname : rstrip (k ++ [' ']) = k := by
    rw [rstrip, List.rdropWhile_concat_pos _ _ _ (by decide)]
    exact rstrip_eq_self hk.2
  have hdrop : ('=' :: t).dropWhile (!isDelimiter ·) = '=' :: t := rfl
  have htake : ('=' :: t).takeWhile (!isDelimiter ·) = [] := rfl
  rw [hdrop, htake, List.append_nil, hname]

/-! ## What is read can be written -/

theorem isSyntax_of_isDelimiter {c : Char} (h : isDelimiter c = true) : isSyntax c = true := by
  rw [isDelimiter, Bool.or_eq_true, beq_iff_eq, beq_iff_eq] at h
  rcases h with rfl | rfl
  · decide
  · decide

theorem isComment_lowers {t u : Text} (h : Lowers t u) (ht : isComment t = false) :
    isComment u = false := by
  cases u with
  | nil => rfl
  | cons c u =>
    obtain ⟨d, hd, -, heq⟩ := h.head c rfl
    cases hs : isSyntax c with
    | true =>
      rw [heq hs]
      cases t with
      | nil => cases hd
      | cons d' t =>
        rw [List.head?_cons, Option.mem_def, Option.some.injEq] at hd
        rw [← hd]
        exact ht
    | false =>
      rw [isComment, Bool.or_eq_false_iff, beq_eq_false_iff_ne, beq_eq_false_iff_ne]
      constructor
      · rintro rfl
        exact absurd hs (by decide)
      · rintro rfl
        exact absurd hs (by decide)

theorem not_bracket_of_not_header {before rest : Text} {d : Char} (hd : isDelimiter d = true)
    (h : headerOf ('[' :: before ++ d :: rest) = none) : ']' ∉ before.tail ++ d :: rest := by
  have hno := headerOf_eq_none_iff.mp h rfl
  cases before with
  | nil =>
    intro hmem
    rcases List.mem_cons.mp hmem with hd' | hmem
    · rw [← hd'] at hd
      exact absurd hd (by decide)
    · exact hno hmem
  | cons c before => exact hno

/-- The name and the value of a line that is an option. -/
theorem linesOk_of_option {f : ConfigFormat} {value name v : Text} (hvalue : Stripped value)
    (hsingle : '\n' ∉ value) (hcomment : isComment value = false) (hheader : headerOf value = none)
    (h : optionOf value = some (name, v)) (hname : name ≠ []) :
    LinesOk f (f.optionxform name) [v] := by
  obtain ⟨before, d, rest, rfl, hd, hbefore, rfl, rfl⟩ := optionOf_eq_some h
  obtain ⟨c, before, rfl⟩ : ∃ c b, before = c :: b := by
    cases before with
    | nil => exact absurd rfl hname
    | cons c b => exact ⟨c, b, rfl⟩
  have hhead : ∀ c' ∈ (c :: before).head?, isSpace c' = false := fun c' hc' => hvalue.1 c' hc'
  have hfront : rstrip (c :: before) <+: c :: before := List.rdropWhile_prefix _ _
  have hfirst : (rstrip (c :: before)).head? = some c := head?_rstrip hhead
  have hstripped : Stripped (rstrip (c :: before)) := by
    refine ⟨fun c' hc' => hhead c' ?_, getLast?_rstrip _⟩
    rw [hfirst] at hc'
    exact hc'
  have hlow := f.lowers (rstrip (c :: before))
  have hnl : isSyntax '\n' = true := by decide
  refine ⟨⟨?_, ?_, ?_, ?_, f.lowers_again _⟩, List.cons_ne_nil _ _, ?_, ?_,
    fun l hl => absurd hl List.not_mem_nil, ?_⟩
  · exact fun hnil => hname (hlow.eq_nil_iff.mp hnil)
  · exact hlow.stripped hstripped
  · intro c' hc'
    constructor
    · rw [← Bool.not_eq_true]
      intro hdel
      have hmem := (hlow.mem_iff (isSyntax_of_isDelimiter hdel)).mp hc'
      rw [hbefore c' (hfront.subset hmem)] at hdel
      cases hdel
    · rintro rfl
      have hmem := (hlow.mem_iff hnl).mp hc'
      exact hsingle (List.mem_append_left _ (hfront.subset hmem))
  · apply isComment_lowers hlow
    cases hr : rstrip (c :: before) with
    | nil => rfl
    | cons c' r =>
      rw [hr, List.head?_cons, Option.some.injEq] at hfirst
      rw [hfirst]
      exact hcomment
  · intro l hl
    rw [List.mem_singleton.mp hl]
    exact stripped_strip rest
  · intro l hl hmem
    rw [List.mem_singleton.mp hl] at hmem
    exact hsingle (List.mem_append_right _ (List.mem_cons_of_mem _ (mem_of_mem_strip hmem)))
  · intro hk
    -- the line begins with a bracket as well, and has no other one behind it
    obtain ⟨c', hc', -, heq⟩ := hlow.head '[' hk
    rw [hfirst, Option.mem_def, Option.some.injEq] at hc'
    have hbracket : c = '[' := by rw [hc', heq (by decide)]
    subst hbracket
    have hnot := not_bracket_of_not_header hd hheader
    constructor
    · intro hmem
      obtain ⟨r, hr⟩ : ∃ r, rstrip ('[' :: before) = '[' :: r := List.head?_eq_some_iff.mp hfirst
      rw [hr] at hlow hmem hfront
      have hmem' : ']' ∈ r.tail := hlow.mem_tail_tail (by decide) (by decide) hmem
      obtain ⟨suffix, rfl⟩ := (List.cons_prefix_cons.mp hfront).2
      cases r with
      | nil => cases hmem'
      | cons c r => exact hnot (List.mem_append_left _ (List.mem_append_left _ hmem'))
    · intro l hl hmem
      rw [List.head?_cons, Option.mem_def, Option.some.injEq] at hl
      rw [← hl] at hmem
      exact hnot (List.mem_append_right _ (List.mem_cons_of_mem _ (mem_of_mem_strip hmem)))

/-! ## Reading keeps what can be written -/

variable {f : ConfigFormat}

theorem inlineStart_nil (line : Text) : inlineStart [] line = none := by
  rw [inlineStart, List.findSome?_eq_none_iff]
  intro k _
  rfl

/-- Where values have no inline comments, a line is a comment as a whole or not at all. -/
theorem commentStart_eq (hf : f.inlinePrefixes = []) (line : Text) :
    commentStart f line = if isComment (strip line) then some 0 else none := by
  rw [commentStart, hf, inlineStart_nil]

/-- What a line that is read without an error does. -/
theorem readLine_cases (hf : f.inlinePrefixes = []) {r r' : Reading} {line : Text}
    (h : r.readLine f line = .ok r') :
    (r' = r ∨ ∃ v, (v = [] ∨ v = strip line) ∧ isComment v = false ∧ r' = r.appendLine v) ∨
    (∃ s, headerOf (strip line) = some s ∧ Reading.header f s { r with indentLevel := indent line } = .ok r') ∨
    (∃ s name v, isComment (strip line) = false ∧ headerOf (strip line) = none ∧
      optionOf (strip line) = some (name, v) ∧
      Reading.option f s name v { r with indentLevel := indent line } = .ok r') ∨
    r' = { r with indentLevel := indent line, failed := true } := by
  rw [Reading.readLine, commentStart_eq hf] at h
  cases hcomment : isComment (strip line) with
  | true =>
    simp only [hcomment, if_true, Option.elim_some, List.take_zero, strip_nil, Option.isNone_some,
      Bool.false_eq_true, if_false, Except.ok.injEq] at h
    exact Or.inl (Or.inl h.symm)
  | false =>
    simp only [hcomment, Bool.false_eq_true, if_false, Option.elim_none, Option.isNone_none,
      if_true] at h
    split at h
    · cases h
      exact Or.inl (Or.inr ⟨[], Or.inl rfl, rfl, rfl⟩)
    · split at h
      · cases h
        exact Or.inl (Or.inr ⟨strip line, Or.inr rfl, hcomment, rfl⟩)
      · right
        cases hheader : headerOf (strip line) with
        | some s =>
          rw [hheader] at h
          exact Or.inl ⟨s, rfl, h⟩
        | none =>
          right
          rw [hheader] at h
          obtain ⟨parser, cursect, optname, indentLevel, added, failed⟩ := r
          cases cursect with
          | none => cases h
          | some s =>
            cases hoption : optionOf (strip line) with
            | none =>
              rw [hoption] at h
              cases h
              exact Or.inr rfl
            | some nv =>
              rw [hoption] at h
              exact Or.inl ⟨s, nv.1, nv.2, rfl, rfl, rfl, h⟩

namespace Sections.All

variable {P : Text → Entry → Prop} {r r' : Reading}

theorem appendLine {v : Text} (h : r.parser.All P)
    (happend : ∀ k e, P k e → P k (e.append v)) : (r.appendLine v).parser.All P := by
  rw [Reading.appendLine]
  split
  · split
    · exact h
    · refine h.modify fun d hd k e he => ?_
      rw [Reading.appendTo] at he
      split at he
      · rename_i e' hopt
        rw [Dict.get_set] at he
        split at he
        · rename_i heq
          cases he
          exact happend k e' (hd k e' (heq ▸ hopt))
        · exact hd k e he
      · exact hd k e he
  · exact h

theorem header {s : Text} (h : r.parser.All P) (hs : s ≠ []) (hsingle : '\n' ∉ s)
    (hr : r.header f s = .ok r') : r'.parser.All P := by
  rw [Reading.header] at hr
  split at hr
  · split at hr
    · cases hr
    · cases hr
      exact h
  · split at hr
    · cases hr
      exact h
    · rename_i hdefault
      cases hr
      refine ⟨h.default, fun s' d hd => ?_, fun s' d hd => ?_⟩
      all_goals
        simp only [Dict.get_set] at hd
        split at hd
      · cases hd
        intro k v hv
        cases hv
      · exact h.option s' d hd
      · rename_i heq
        rw [heq]
        exact ⟨hs, hsingle, hdefault⟩
      · exact h.named s' d hd

/-- One line that is read: a property of the options is kept when the lines that are
added to a value keep it and an option on a line of its own has it. -/
theorem readLine (hf : f.inlinePrefixes = []) {line : Text} (h : r.parser.All P)
    (hline : '\n' ∉ line)
    (happend : ∀ v, Stripped v → '\n' ∉ v → isComment v = false →
      ∀ k e, P k e → P k (e.append v))
    (hoption : ∀ name v, isComment (strip line) = false → headerOf (strip line) = none →
      optionOf (strip line) = some (name, v) → (r'.failed = false → name ≠ []) →
      P (f.optionxform name) (.lines [v]))
    (hr : r.readLine f line = .ok r') : r'.parser.All P := by
  have hnl : '\n' ∉ strip line := fun hmem => hline (mem_of_mem_strip hmem)
  obtain (rfl | ⟨v, hv, hcomment, rfl⟩) | ⟨s, hs, hr⟩ | ⟨s, name, v, hcomment, hheader, hname, hr⟩ |
    rfl := readLine_cases hf hr
  · exact h
  · rcases hv with rfl | rfl
    · exact h.appendLine (happend [] stripped_nil List.not_mem_nil hcomment)
    · exact h.appendLine (happend _ (stripped_strip line) hnl hcomment)
  · exact Sections.All.header (r := { r with indentLevel := indent line }) h (ne_nil_of_headerOf hs)
      (fun hmem => hnl (mem_of_headerOf hs hmem)) hr
  · rw [Reading.option] at hr
    split at hr
    · cases hr
    · cases hr
      have hnew := hoption name v hcomment hheader hname fun hok => by
        rintro rfl
        simp at hok
      refine h.modify fun d hd k e he => ?_
      rw [Dict.get_set] at he
      split at he
      · rename_i heq
        cases he
        rw [heq]
        exact hnew
      · exact hd k e he
  · exact h

end Sections.All

/-- The values of a state of `_read`. -/
def EntriesOk (f : ConfigFormat) (r : Reading) : Prop := r.parser.All (EntryOk f)

theorem LinesOk.concat {k v : Text} {ls : List Text} (h : LinesOk f k ls) (hv : Stripped v)
    (hsingle : '\n' ∉ v) (hcomment : isComment v = false) : LinesOk f k (ls ++ [v]) := by
  refine ⟨h.name, List.append_ne_nil_of_left_ne_nil h.ne _, ?_, ?_, ?_, ?_⟩
  · intro l hl
    rcases List.mem_append.mp hl with hl | hl
    · exact h.stripped l hl
    · rw [List.mem_singleton.mp hl]
      exact hv
  · intro l hl
    rcases List.mem_append.mp hl with hl | hl
    · exact h.single l hl
    · rw [List.mem_singleton.mp hl]
      exact hsingle
  · intro l hl
    rw [List.tail_append_of_ne_nil h.ne] at hl
    rcases List.mem_append.mp hl with hl | hl
    · exact h.not_comment l hl
    · rw [List.mem_singleton.mp hl]
      exact hcomment
  · intro hk
    refine ⟨(h.not_header hk).1, fun l hl => (h.not_header hk).2 l ?_⟩
    rw [List.head?_append_of_ne_nil _ h.ne] at hl
    exact hl

theorem EntryOk.append {k v : Text} (hv : Stripped v) (hsingle : '\n' ∉ v)
    (hcomment : isComment v = false) {e : Entry} (h : EntryOk f k e) : EntryOk f k (e.append v) := by
  cases e with
  | text t => exact h
  | lines ls => exact LinesOk.concat h hv hsingle hcomment

/-- One line that is read. -/
theorem EntriesOk.readLine (hf : f.inlinePrefixes = []) {r r' : Reading} {line : Text}
    (h : EntriesOk f r) (hline : '\n' ∉ line) (hr : r.readLine f line = .ok r')
    (hok : r'.failed = false) : EntriesOk f r' := by
  refine Sections.All.readLine hf h hline (fun v hv hsingle hcomment k e he => ?_)
    (fun name v hcomment hheader hoption hname => ?_) hr
  · exact he.append hv hsingle hcomment
  · exact linesOk_of_option (stripped_strip line) (fun hmem => hline (mem_of_mem_strip hmem))
      hcomment hheader hoption (hname hok)

/-- An error that is noted stays noted. -/
theorem failed_readLine (hf : f.inlinePrefixes = []) {r r' : Reading} {line : Text}
    (h : r.readLine f line = .ok r') (hfailed : r.failed = true) : r'.failed = true := by
  obtain (rfl | ⟨v, -, -, rfl⟩) | ⟨s, -, hr⟩ | ⟨s, name, v, -, -, -, hr⟩ | rfl :=
    readLine_cases hf h
  · exact hfailed
  · rw [Reading.appendLine]
    split
    · split
      · exact hfailed
      · exact hfailed
    · exact hfailed
  · rw [Reading.header] at hr
    split at hr
    · split at hr
      · cases hr
      · cases hr
        exact hfailed
    · split at hr
      · cases hr
        exact hfailed
      · cases hr
        exact hfailed
  · rw [Reading.option] at hr
    split at hr
    · cases hr
    · cases hr
      exact Bool.or_eq_true_iff.mpr (Or.inl hfailed)
  · rfl

theorem failed_readLines (hf : f.inlinePrefixes = []) {lines : List Text} {r r' : Reading}
    (h : Reading.readLines f r lines = (r', none)) (hfailed : r.failed = true) :
    r'.failed = true := by
  induction lines generalizing r with
  | nil =>
    cases h
    exact hfailed
  | cons line lines ih =>
    rw [Reading.readLines] at h
    cases hline : r.readLine f line with
    | error e =>
      rw [hline] at h
      cases h
    | ok r₁ =>
      rw [hline] at h
      exact ih h (failed_readLine hf hline hfailed)

theorem EntriesOk.readLines (hf : f.inlinePrefixes = []) {lines : List Text} {r r' : Reading}
    (h : EntriesOk f r) (hlines : ∀ l ∈ lines, '\n' ∉ l)
    (hr : Reading.readLines f r lines = (r', none)) (hok : r'.failed = false) :
    EntriesOk f r' := by
  induction lines generalizing r with
  | nil =>
    cases hr
    exact h
  | cons line lines ih =>
    rw [Reading.readLines] at hr
    cases hline : r.readLine f line with
    | error e =>
      rw [hline] at hr
      cases hr
    | ok r₁ =>
      rw [hline] at hr
      refine ih ?_ (fun l hl => hlines l (List.mem_cons_of_mem _ hl)) hr
      cases hfailed : r₁.failed with
      | true =>
        rw [failed_readLines hf hr hfailed] at hok
        cases hok
      | false => exact h.readLine hf (hlines line List.mem_cons_self) hline hfailed

/-- A parser all of whose values can be written and read back. -/
def Config.Writable (f : ConfigFormat) (p : Config) : Prop := p.All (ValueOk f)

theorem not_mem_of_mem_fileLines {t l : Text} (h : l ∈ fileLines t) : '\n' ∉ l := by
  rcases List.mem_append.mp h with h | h
  · exact not_mem_of_mem_linesOf h
  · split at h
    · exact absurd h List.not_mem_nil
    · rw [List.mem_singleton.mp h]
      exact not_mem_tailOf t

/-- What is read without an error can be written. -/
theorem writable_readString (hf : f.inlinePrefixes = []) {p p' : Config} {t : Text}
    (h : p.Writable f) (hread : Config.readString f p t = (p', none)) : p'.Writable f := by
  cases hr : Reading.readLines f (Reading.start p) (fileLines t) with
  | mk r e =>
    simp only [Config.readString, hr, Prod.mk.injEq] at hread
    obtain ⟨rfl, herror⟩ := hread
    cases e with
    | some e => cases herror
    | none =>
      have hok : r.failed = false := by
        rw [← Bool.not_eq_true]
        intro hfailed
        rw [hfailed] at herror
        cases herror
      have hstart : EntriesOk f (Reading.start p) := Sections.All.map h fun k v hv => hv
      have hend := hstart.readLines hf (fun l hl => not_mem_of_mem_fileLines hl) hr hok
      exact Sections.All.map hend fun k e he => he.join

end FlsunT1.Library
