/-
  Library/ConfigRoundTrip.lean --- what a configuration parser writes it reads back.

  The text that is written is taken line by line: a header adds its section, the lines
  of an option add its value, and the empty line behind a section is white space at the
  end of its last value.
-/
import FlsunT1.Library.ConfigReading

set_option autoImplicit false

namespace FlsunT1.Library

open Text

variable {f : ConfigFormat}

/-! ## The lines that are written -/

/-- The lines of an option: the later ones are set in by a tab. -/
def optionLines (o v : Text) : List Text :=
  match v.splitOn '\n' with
  | [] => []
  | l :: ls => (o ++ " = ".toList ++ l) :: ls.map ('\t' :: ·)

def sectionLines (s : Text) (options : Dict Text Text) : List Text :=
  ('[' :: (s ++ [']'])) ::
    ((options.items.flatMap fun (o, v) => optionLines o v) ++ [[]])

def configLines (p : Config) : List Text :=
  (if p.defaults.items = [] then [] else sectionLines defaultSection p.defaults) ++
    p.sections.items.flatMap fun (s, options) => sectionLines s options

theorem setIn_append (t u : Text) : setIn (t ++ u) = setIn t ++ setIn u := List.flatMap_append

theorem setIn_eq_self {t : Text} (h : '\n' ∉ t) : setIn t = t := by
  induction t with
  | nil => rfl
  | cons c t ih =>
    rw [List.mem_cons, not_or] at h
    rw [setIn, List.flatMap_cons, if_neg (Ne.symm h.1)]
    exact congrArg (c :: ·) (ih h.2)

theorem setIn_unlines (l : Text) (ls : List Text) (h : ∀ l' ∈ l :: ls, '\n' ∉ l') :
    setIn (unlines (l :: ls)) ++ ['\n'] = joinLines '\n' (l :: ls.map ('\t' :: ·)) := by
  induction ls generalizing l with
  | nil =>
    rw [unlines_singleton, setIn_eq_self (h l List.mem_cons_self)]
    simp [joinLines]
  | cons l' ls ih =>
    have hl' := ih l' fun l'' hl'' => h l'' (List.mem_cons_of_mem _ hl'')
    rw [unlines_cons _ (List.cons_ne_nil _ _), setIn_append,
      setIn_eq_self (h l List.mem_cons_self), ← List.singleton_append, setIn_append]
    rw [joinLines_cons] at hl' ⊢
    rw [List.map_cons, joinLines_cons, List.cons_append, ← hl']
    simp [setIn]

theorem optionText_eq (o v : Text) :
    o ++ " = ".toList ++ setIn v ++ ['\n'] = joinLines '\n' (optionLines o v) := by
  have hv : unlines (v.splitOn '\n') = v := List.intercalate_splitOn '\n'
  rw [optionLines]
  cases hls : v.splitOn '\n' with
  | nil => exact absurd hls (List.splitOn_ne_nil '\n' v)
  | cons l ls =>
    have hsplit : ∀ l' ∈ l :: ls, '\n' ∉ l' := fun l' hl' => not_mem_of_mem_splitOn (hls ▸ hl')
    rw [hls] at hv
    rw [← hv, List.append_assoc, setIn_unlines l ls hsplit]
    simp only [joinLines_cons, List.append_assoc]

theorem writeSection_eq (s : Text) (options : Dict Text Text) :
    writeSection s options = joinLines '\n' (sectionLines s options) := by
  have hoptions : ∀ items : List (Text × Text),
      (items.flatMap fun (o, v) => o ++ " = ".toList ++ setIn v ++ ['\n']) =
        joinLines '\n' (items.flatMap fun (o, v) => optionLines o v) := by
    intro items
    induction items with
    | nil => rfl
    | cons kv items ih =>
      rw [List.flatMap_cons, List.flatMap_cons, joinLines_append, ← ih, ← optionText_eq]
  rw [writeSection, hoptions, sectionLines, joinLines_cons, joinLines_append]
  simp [joinLines]

theorem write_eq (p : Config) : p.write = joinLines '\n' (configLines p) := by
  have hsections : ∀ items : List (Text × Dict Text Text),
      (items.flatMap fun (s, options) => writeSection s options) =
        joinLines '\n' (items.flatMap fun (s, options) => sectionLines s options) := by
    intro items
    induction items with
    | nil => rfl
    | cons kv items ih => rw [List.flatMap_cons, List.flatMap_cons, joinLines_append, ← ih, ← writeSection_eq]
  rw [Config.write, configLines, joinLines_append, hsections]
  congr 1
  split
  · rfl
  · exact writeSection_eq _ _

theorem fileLines_joinLines {ls : List Text} (h : ∀ l ∈ ls, '\n' ∉ l) :
    fileLines (joinLines '\n' ls) = ls := by
  have hlines := linesOf_joinLines h []
  rw [List.append_nil, linesOf_eq_nil List.not_mem_nil, List.append_nil] at hlines
  have htail : joinLines '\n' (linesOf '\n' (joinLines '\n' ls)) ++ tailOf '\n' (joinLines '\n' ls) =
      joinLines '\n' ls := joinLines_linesOf _
  rw [hlines, List.append_right_eq_self] at htail
  rw [fileLines, hlines, if_pos htail, List.append_nil]

theorem unlines_concat_nil {ls : List Text} (h : ls ≠ []) :
    unlines (ls ++ [[]]) = joinLines '\n' ls := by
  induction ls with
  | nil => exact absurd rfl h
  | cons l ls ih =>
    cases ls with
    | nil => simp [unlines_cons, unlines_singleton]
    | cons l' ls =>
      rw [List.cons_append, unlines_cons _ (by simp), ih (List.cons_ne_nil _ _),
        joinLines_cons '\n' l (l' :: ls)]

/-- A line that was joined with others is found again. -/
theorem mem_fileLines_unlines {ls : List Text} {l : Text} (hmem : l ∈ ls) (h : '\n' ∉ l) :
    l ∈ fileLines (unlines (ls ++ [[]])) := by
  rw [unlines_concat_nil (List.ne_nil_of_mem hmem)]
  refine List.mem_append_left _ ?_
  induction ls with
  | nil => cases hmem
  | cons l' ls ih =>
    rw [joinLines_cons, linesOf_append, List.mem_append]
    rcases List.mem_cons.mp hmem with rfl | hmem
    · left
      rw [List.splitOn_eq_singleton h]
      exact List.mem_cons_self
    · exact Or.inr (ih hmem)

/-- No line that is written has a break in it. -/
theorem not_mem_of_mem_sectionLines {s : Text} {options : Dict Text Text} (hs : '\n' ∉ s)
    (hoptions : ∀ k v, options.get k = some v → ValueOk f k v) :
    ∀ l ∈ sectionLines s options, '\n' ∉ l := by
  intro l hl
  rw [sectionLines, List.mem_cons, List.mem_append, List.mem_singleton, List.mem_flatMap] at hl
  obtain rfl | ⟨⟨k, v⟩, hkv, hl⟩ | rfl := hl
  · simpa using hs
  · obtain ⟨ls, hls, -⟩ := hoptions k v (Dict.get_eq_some_iff.mpr hkv)
    simp only [optionLines] at hl
    cases hsplit : v.splitOn '\n' with
    | nil =>
      rw [hsplit] at hl
      exact absurd hl List.not_mem_nil
    | cons l₀ ls₀ =>
      rw [hsplit] at hl
      have hnot : ∀ l' ∈ l₀ :: ls₀, '\n' ∉ l' := fun l' hl' => not_mem_of_mem_splitOn (hsplit ▸ hl')
      rcases List.mem_cons.mp hl with rfl | hl
      · have hk : '\n' ∉ k := fun hmem => (hls.name.plain '\n' hmem).2 rfl
        have hl₀ : '\n' ∉ l₀ := hnot l₀ List.mem_cons_self
        simp [hk, hl₀]
      · obtain ⟨l', hl', rfl⟩ := List.mem_map.mp hl
        have := hnot l' (List.mem_cons_of_mem _ hl')
        simp [this]
  · exact List.not_mem_nil

theorem not_mem_of_mem_configLines {p : Config} (h : p.Writable f) :
    ∀ l ∈ configLines p, '\n' ∉ l := by
  intro l hl
  rw [configLines, List.mem_append, List.mem_flatMap] at hl
  rcases hl with hl | ⟨⟨s, options⟩, hs, hl⟩
  · split at hl
    · exact absurd hl List.not_mem_nil
    · exact not_mem_of_mem_sectionLines (by decide) h.default l hl
  · have hget : p.sections.get s = some options := Dict.get_eq_some_iff.mpr hs
    exact not_mem_of_mem_sectionLines (h.named s options hget).2.1 (h.option s options hget) l hl

/-! ## Reading a line that was written -/

theorem readLine_header {s : Text} (hf : f.inlinePrefixes = []) (hs : s ≠ []) (r : Reading) :
    r.readLine f ('[' :: (s ++ [']'])) = Reading.header f s { r with indentLevel := 0 } := by
  have hstripped : Stripped ('[' :: (s ++ [']'])) := by
    constructor
    · intro c hc
      rw [List.head?_cons, Option.mem_def, Option.some.injEq] at hc
      rw [← hc]
      decide
    · intro c hc
      rw [← List.cons_append, List.getLast?_concat, Option.mem_def, Option.some.injEq] at hc
      rw [← hc]
      decide
  have hindent : indent ('[' :: (s ++ [']'])) = 0 := rfl
  rw [Reading.readLine, commentStart_eq hf, strip_eq_self hstripped]
  have hcomment : isComment ('[' :: (s ++ [']'])) = false := rfl
  simp only [hcomment, Bool.false_eq_true, if_false, Option.elim_none, strip_eq_self hstripped,
    List.cons_ne_nil, hindent, Nat.not_lt_zero, and_false, headerOf_bracket hs]

theorem indent_of_stripped {k t : Text} (hk : Stripped k) (hne : k ≠ []) : indent (k ++ t) = 0 := by
  obtain ⟨c, k, rfl⟩ := List.exists_cons_of_ne_nil hne
  have hc : isSpace c = false := hk.1 c rfl
  rw [indent, List.cons_append, List.takeWhile_cons, hc]
  rfl

theorem isComment_append {k : Text} (hne : k ≠ []) (t : Text) : isComment (k ++ t) = isComment k := by
  obtain ⟨c, k, rfl⟩ := List.exists_cons_of_ne_nil hne
  rfl

/-- The first line of an option without the white space at its end. -/
theorem strip_optionLine {k l : Text} (hk : Stripped k) (hne : k ≠ []) (hl : Stripped l) :
    ∃ t, strip (k ++ " = ".toList ++ l) = k ++ ' ' :: '=' :: t ∧ strip t = l ∧
      ∀ c ∈ t, c = ' ' ∨ c ∈ l := by
  have hfront : ∀ t, ∀ c ∈ (k ++ t).head?, isSpace c = false := by
    intro t c hc
    rw [List.head?_append_of_ne_nil _ hne] at hc
    exact hk.1 c hc
  have hshape : k ++ " = ".toList ++ l = k ++ ' ' :: '=' :: ' ' :: l := by
    rw [List.append_assoc]
    rfl
  rw [hshape, strip, lstrip_eq_self (hfront _)]
  by_cases hempty : l = []
  · subst hempty
    refine ⟨[], ?_, rfl, fun c hc => absurd hc List.not_mem_nil⟩
    have hcut : k ++ [' ', '=', ' '] = (k ++ [' ', '=']) ++ [' '] := by simp
    rw [hcut, rstrip, List.rdropWhile_concat_pos _ _ _ (by decide)]
    refine rstrip_eq_self fun c hc => ?_
    rw [List.getLast?_append, Option.mem_def] at hc
    cases hc
    decide
  · refine ⟨' ' :: l, ?_, ?_, fun c hc => List.mem_cons.mp hc⟩
    · refine rstrip_eq_self fun c hc => hl.2 c ?_
      rw [List.getLast?_append, List.getLast?_cons, List.getLast?_cons, List.getLast?_cons,
        List.getLast?_eq_some_getLast hempty] at hc
      rw [List.getLast?_eq_some_getLast hempty]
      exact hc
    · exact strip_eq_self hl

theorem readLine_option {r : Reading} {s k l : Text} (hf : f.inlinePrefixes = [])
    (hcur : r.cursect = some s) (h : LinesOk f k [l]) :
    r.readLine f (k ++ " = ".toList ++ l) =
      Reading.option f s k l { r with indentLevel := 0 } := by
  have hk := h.name
  obtain ⟨t, hstrip, ht, hmem⟩ := strip_optionLine hk.stripped hk.ne (h.stripped l List.mem_cons_self)
  have hcomment : isComment (k ++ ' ' :: '=' :: t) = false := by
    rw [isComment_append hk.ne]
    exact hk.not_comment
  have hheader : headerOf (k ++ ' ' :: '=' :: t) = none := by
    refine headerOf_eq_none_iff.mpr fun hhead hbracket => ?_
    rw [List.head?_append_of_ne_nil _ hk.ne] at hhead
    obtain ⟨hname, hvalue⟩ := h.not_header hhead
    have hrest : ']' ∉ t := by
      intro ht'
      rcases hmem _ ht' with hspace | ht'
      · exact absurd hspace (by decide)
      · exact hvalue l rfl ht'
    cases k with
    | nil => exact hk.ne rfl
    | cons c k =>
      cases k with
      | nil =>
        rcases List.mem_cons.mp hbracket with hdel | ht'
        · exact absurd hdel (by decide)
        · exact hrest ht'
      | cons d k =>
        rcases List.mem_append.mp hbracket with hk' | ht'
        · exact hname hk'
        · simp only [List.mem_cons] at ht'
          obtain hspace | hdel | ht' := ht'
          · exact absurd hspace (by decide)
          · exact absurd hdel (by decide)
          · exact hrest ht'
  have hoption := optionOf_line hk.stripped (fun c hc => (hk.plain c hc).1) t
  have hindent : indent (k ++ " = ".toList ++ l) = 0 := by
    rw [List.append_assoc]
    exact indent_of_stripped hk.stripped hk.ne
  have hne : k ++ ' ' :: '=' :: t ≠ [] := List.append_ne_nil_of_left_ne_nil hk.ne _
  rw [Reading.readLine, commentStart_eq hf, hstrip]
  simp only [hcomment, Bool.false_eq_true, if_false, Option.elim_none, hstrip, hne, hindent,
    Nat.not_lt_zero, and_false, hheader, hcur, hoption, ht]

theorem readLine_continuation {r : Reading} {s l : Text} (hf : f.inlinePrefixes = [])
    (hcur : r.cursect = some s) (hopt : r.optname ≠ []) (hlevel : r.indentLevel = 0)
    (hl : Stripped l) (hcomment : isComment l = false) :
    r.readLine f ('\t' :: l) = .ok (r.appendLine l) := by
  have hstrip : strip ('\t' :: l) = l := strip_eq_self hl
  have hindent : 0 < indent ('\t' :: l) := Nat.succ_pos _
  rw [Reading.readLine, commentStart_eq hf, hstrip]
  simp only [hcomment, Bool.false_eq_true, if_false, Option.elim_none, hstrip, Option.isNone_none,
    if_true, hcur, Option.isSome_some, hlevel, hindent, ne_eq, hopt, not_false_eq_true, and_self]
  split
  · rename_i hempty
    rw [hempty]
  · rfl

/-! ## The parser while the lines are read -/

namespace Sections

variable {β γ : Type}

theorem modify_modify (s : Text) (g h : Dict Text β → Dict Text β) (p : Sections β) :
    modify s h (modify s g p) = modify s (fun d => h (g d)) p := by
  simp only [modify]
  cases hs : p.sections.get s with
  | none => simp only [hs]
  | some d => simp only [Dict.get_set, if_true, Dict.set_set]

theorem map_modify (j : β → γ) {s : Text} {g : Dict Text β → Dict Text β}
    {h : Dict Text γ → Dict Text γ} (hgh : ∀ d, (g d).mapVals j = h (d.mapVals j))
    (p : Sections β) : (modify s g p).map j = modify s h (p.map j) := by
  simp only [modify, map, Dict.get_mapVals]
  cases hs : p.sections.get s with
  | none => simp only [Option.map_none, hgh]
  | some d => simp only [Option.map_some, ← hgh, Dict.set_mapVals]

theorem modify_id (s : Text) (p : Sections β) : modify s (fun d => d) p = p := by
  simp only [modify]
  cases hs : p.sections.get s with
  | none => rfl
  | some d => simp only [Dict.set_of_get hs]

/-- The sections with a new section, or with more defaults. -/
def put (s : Text) (options : Dict Text β) (p : Sections β) : Sections β :=
  if s = defaultSection then { p with defaults := p.defaults.update options }
  else { p with sections := p.sections.set s options }

end Sections

/-- The parser, if the values were joined now. -/
def Reading.view (r : Reading) : Config := r.parser.map Entry.join

/-- The state behind the lines `ls` of the option `k`. -/
def Reading.withOption (s k : Text) (ls : List Text) (r : Reading) : Reading :=
  { r with
    parser := r.parser.modify s fun d => d.set k (.lines ls)
    optname := k, indentLevel := 0, added := (s, some k) :: r.added }

theorem appendLine_withOption {r : Reading} {s k : Text} (hcur : r.cursect = some s) (hk : k ≠ [])
    (ls : List Text) (l : Text) :
    (r.withOption s k ls).appendLine l = r.withOption s k (ls ++ [l]) := by
  have happend : ∀ d : Dict Text Entry,
      Reading.appendTo k l (d.set k (.lines ls)) = d.set k (.lines (ls ++ [l])) := by
    intro d
    simp only [Reading.appendTo, Dict.get_set, if_true, Entry.append, Dict.set_set]
  simp only [Reading.appendLine, Reading.withOption, hcur, hk, if_false, Sections.modify_modify,
    happend]

/-- The lines of an option give its value. -/
theorem readLines_option {r : Reading} {s k : Text} {ls : List Text} (hf : f.inlinePrefixes = [])
    (hcur : r.cursect = some s) (hfresh : (s, some k) ∉ r.added) (h : LinesOk f k ls)
    (rest : List Text) :
    Reading.readLines f r (optionLines k (unlines ls) ++ rest) =
      Reading.readLines f (r.withOption s k ls) rest := by
  obtain ⟨l, ls, rfl⟩ := List.exists_cons_of_ne_nil h.ne
  have hlater : ∀ (later front : List Text), LinesOk f k (front ++ later) → front ≠ [] →
      Reading.readLines f (r.withOption s k front) (later.map ('\t' :: ·) ++ rest) =
        Reading.readLines f (r.withOption s k (front ++ later)) rest := by
    intro later
    induction later with
    | nil =>
      intro front _ _
      rw [List.append_nil]
      rfl
    | cons l' later ih =>
      intro front hfront hne
      have hl' : l' ∈ front ++ l' :: later := List.mem_append_right _ List.mem_cons_self
      have hcomment : isComment l' = false := by
        apply hfront.not_comment
        rw [List.tail_append_of_ne_nil hne]
        exact List.mem_append_right _ List.mem_cons_self
      rw [List.map_cons, List.cons_append, Reading.readLines,
        readLine_continuation (r := r.withOption s k front) hf hcur h.name.ne rfl
          (hfront.stripped l' hl') hcomment]
      have happend := appendLine_withOption hcur h.name.ne front l'
      simp only [happend]
      have hshape : front ++ l' :: later = (front ++ [l']) ++ later := by simp
      rw [hshape] at hfront ⊢
      exact ih _ hfront (by simp)
  have hfirst : LinesOk f k [l] := by
    refine ⟨h.name, List.cons_ne_nil _ _, fun l' hl' => h.stripped l' ?_,
      fun l' hl' => h.single l' ?_, fun l' hl' => absurd hl' List.not_mem_nil, h.not_header⟩
    all_goals
      rw [List.mem_singleton.mp hl']
      exact List.mem_cons_self
  have hoption : Reading.option f s k l { r with indentLevel := 0 } = .ok (r.withOption s k [l]) := by
    have hne : k.isEmpty = false := by simp [h.name.ne]
    simp [Reading.option, h.name.lowered, hfresh, hne, Reading.withOption]
  rw [optionLines, splitOn_unlines h.ne h.single]
  simp only [List.cons_append]
  rw [Reading.readLines, readLine_option hf hcur hfirst, hoption]
  exact hlater ls [l] h (List.cons_ne_nil _ _)

/-- What the lines of options and of sections do to the state: the view changes by `g`, and
what is added belongs to the names of a list. -/
structure Reading.Goes (f : ConfigFormat) (g : Config → Config) (names : List Text)
    (r r' : Reading) : Prop where
  view : r'.view = g r.view
  entries : EntriesOk f r'
  failed : r'.failed = r.failed
  added : ∀ e ∈ r'.added, e ∈ r.added ∨ e.1 ∈ names

theorem entriesOk_withOption {r : Reading} {s k : Text} {ls : List Text} (h : EntriesOk f r)
    (hls : LinesOk f k ls) : EntriesOk f (r.withOption s k ls) := by
  refine Sections.All.modify h fun d hd k' e he => ?_
  rw [Dict.get_set] at he
  split at he
  · rename_i heq
    cases he
    exact heq ▸ hls
  · exact hd k' e he

theorem view_withOption {r : Reading} {s k : Text} {ls : List Text} :
    (r.withOption s k ls).view =
      r.view.modify s fun d => d.set k (Entry.lines ls).join := by
  rw [Reading.view, Reading.view, Reading.withOption]
  exact Sections.map_modify _ (fun d => (Dict.set_mapVals _ _ _ _).symm) _

/-- A value that was read is joined to what it was. -/
theorem join_lines {k : Text} {ls : List Text} (h : LinesOk f k ls)
    (hlast : ls.tail ≠ [] → ls.getLast? ≠ some []) : (Entry.lines ls).join = unlines ls := by
  show rstrip (unlines ls) = unlines ls
  obtain rfl | ⟨front, l, rfl⟩ := List.eq_nil_or_concat ls
  · exact absurd rfl h.ne
  · rw [List.concat_eq_append] at *
    have hl : Stripped l := h.stripped l (List.mem_append_right _ List.mem_cons_self)
    by_cases hempty : l = []
    · cases front with
      | nil =>
        rw [hempty]
        rfl
      | cons l' front =>
        rw [List.getLast?_concat] at hlast
        exact absurd (congrArg some hempty) (hlast (by simp))
    · exact rstrip_unlines_concat hl hempty

theorem readLines_options {s : Text} (hf : f.inlinePrefixes = []) (rest : List Text)
    (items : List (Text × Text)) (hitems : ∀ kv ∈ items, ValueOk f kv.1 kv.2)
    (hnodup : (items.map Prod.fst).Nodup) (r : Reading) (h : EntriesOk f r)
    (hcur : r.cursect = some s) (hfresh : ∀ kv ∈ items, (s, some kv.1) ∉ r.added) :
    ∃ r', Reading.readLines f r ((items.flatMap fun (o, v) => optionLines o v) ++ rest) =
        Reading.readLines f r' rest ∧
      Reading.Goes f (Sections.modify s (Dict.setAll items)) [s] r r' ∧
      r'.cursect = some s := by
  induction items generalizing r with
  | nil => exact ⟨r, rfl, ⟨(Sections.modify_id s r.view).symm, h, rfl, fun e he => Or.inl he⟩, hcur⟩
  | cons kv items ih =>
    obtain ⟨k, v⟩ := kv
    obtain ⟨ls, hls, rfl, hlast⟩ := hitems (k, v) List.mem_cons_self
    obtain ⟨hk, hrest⟩ := List.nodup_cons.mp hnodup
    have hfresh' : ∀ kv ∈ items, (s, some kv.1) ∉ (r.withOption s k ls).added := by
      intro kv hkv hmem
      rcases List.mem_cons.mp hmem with heq | hmem
      · rw [Prod.mk.injEq, Option.some.injEq] at heq
        have hmem : kv.1 ∈ items.map Prod.fst := List.mem_map_of_mem hkv
        exact hk (heq.2 ▸ hmem)
      · exact hfresh kv (List.mem_cons_of_mem _ hkv) hmem
    obtain ⟨r', hread, hgoes, hcur'⟩ := ih (fun kv hkv => hitems kv (List.mem_cons_of_mem _ hkv))
      hrest (r.withOption s k ls) (entriesOk_withOption h hls) hcur hfresh'
    refine ⟨r', ?_, ⟨?_, hgoes.entries, hgoes.failed, fun e he => ?_⟩, hcur'⟩
    · rw [List.flatMap_cons, List.append_assoc,
        readLines_option hf hcur (hfresh _ List.mem_cons_self) hls, hread]
    · rw [hgoes.view, view_withOption, Sections.modify_modify, join_lines hls hlast]
      rfl
    · rcases hgoes.added e he with he | he
      · rcases List.mem_cons.mp he with rfl | he
        · exact Or.inr List.mem_cons_self
        · exact Or.inl he
      · exact Or.inr he

/-- The empty line behind a section is white space at the end of its last value. -/
theorem view_appendLine_nil {r : Reading} (h : EntriesOk f r) : (r.appendLine []).view = r.view := by
  rw [Reading.appendLine]
  split
  · split
    · rfl
    · rename_i s hcur hopt
      have hsame : ∀ d : Dict Text Entry, (∀ k e, d.get k = some e → EntryOk f k e) →
          (Reading.appendTo r.optname [] d).mapVals Entry.join = d.mapVals Entry.join := by
        intro d hd
        rw [Reading.appendTo]
        split
        · rename_i e hget
          have hjoin : (e.append []).join = e.join := by
            cases e with
            | text t => rfl
            | lines ls => exact rstrip_unlines_concat_nil (hd _ _ hget).ne
          rw [← Dict.set_mapVals, hjoin]
          apply Dict.set_of_get
          rw [Dict.get_mapVals, hget, Option.map_some]
        · rfl
      simp only [Reading.view, Sections.modify]
      cases hs : r.parser.sections.get s with
      | none => simp only [Sections.map, hsame _ h.default]
      | some d =>
        simp only [Sections.map, ← Dict.set_mapVals, hsame d (h.option s d hs)]
        rw [Dict.set_of_get (by rw [Dict.get_mapVals, hs, Option.map_some])]
  · rfl

theorem readLine_nil (hf : f.inlinePrefixes = []) (r : Reading) :
    r.readLine f [] = .ok (r.appendLine []) := by
  rw [Reading.readLine, commentStart_eq hf]
  rfl

theorem appendLine_frame (v : Text) (r : Reading) :
    (r.appendLine v).failed = r.failed ∧ (r.appendLine v).added = r.added := by
  rw [Reading.appendLine]
  split
  · split
    · exact ⟨rfl, rfl⟩
    · exact ⟨rfl, rfl⟩
  · exact ⟨rfl, rfl⟩

/-- The state behind the header of a new section. -/
theorem header_new {r : Reading} {s : Text} (h : EntriesOk f r) (hs : s ≠ []) (hsingle : '\n' ∉ s)
    (hfresh : r.parser.sections.get s = none) :
    ∃ r', r.header f s = .ok r' ∧ r'.cursect = some s ∧
      Reading.Goes f (Sections.put s .empty) [s] r r' ∧ ∀ e ∈ r'.added, e ∈ r.added ∨ e = (s, none) := by
  have hnone : ¬(r.parser.sections.get s).isSome = true := by rw [hfresh]; exact Bool.false_ne_true
  by_cases hdefault : s = defaultSection
  · have hheader : r.header f s = .ok { r with cursect := some s, optname := [] } := by
      rw [Reading.header, if_neg hnone, if_pos hdefault]
    refine ⟨_, hheader, rfl, ⟨?_, h, rfl, fun e he => Or.inl he⟩, fun e he => Or.inl he⟩
    rw [Sections.put, if_pos hdefault]
    rfl
  · have hheader : r.header f s = .ok { r with
        parser := { r.parser with sections := r.parser.sections.set s .empty }
        cursect := some s, optname := [], added := (s, none) :: r.added } := by
      rw [Reading.header, if_neg hnone, if_neg hdefault]
    refine ⟨_, hheader, rfl, ⟨?_, Sections.All.header h hs hsingle hheader, rfl, fun e he => ?_⟩,
      fun e he => (List.mem_cons.mp he).symm⟩
    · rw [Sections.put, if_neg hdefault, Reading.view, Reading.view, Sections.map, ← Dict.set_mapVals]
      rfl
    · rcases List.mem_cons.mp he with rfl | he
      · exact Or.inr List.mem_cons_self
      · exact Or.inl he

theorem modify_put {β : Type} {p : Sections β} {s : Text} (options : Dict Text β)
    (hp : p.sections.get defaultSection = none) :
    (p.put s .empty).modify s (Dict.setAll options.items) = p.put s options := by
  by_cases hdefault : s = defaultSection
  · subst hdefault
    simp only [Sections.put, if_true, Sections.modify, hp]
    rfl
  · simp only [Sections.put, if_neg hdefault, Sections.modify, Dict.get_set, if_true,
      Dict.set_set, Dict.setAll_items]

theorem get_default_view {r : Reading} (h : EntriesOk f r) :
    r.view.sections.get defaultSection = none := by
  rw [Reading.view, Sections.map, Dict.get_mapVals]
  cases hs : r.parser.sections.get defaultSection with
  | none => rfl
  | some d => exact absurd rfl (h.named _ d hs).2.2

/-- The lines of a section that is not there yet add it. -/
theorem readLines_section {s : Text} {options : Dict Text Text} (hf : f.inlinePrefixes = [])
    (hs : s ≠ []) (hsingle : '\n' ∉ s) (hoptions : ∀ k v, options.get k = some v → ValueOk f k v)
    (rest : List Text) (r : Reading) (h : EntriesOk f r)
    (hfresh : r.parser.sections.get s = none) (hadded : ∀ o, (s, o) ∉ r.added) :
    ∃ r', Reading.readLines f r (sectionLines s options ++ rest) = Reading.readLines f r' rest ∧
      Reading.Goes f (Sections.put s options) [s] r r' := by
  obtain ⟨r₁, hheader, hcur, hgoes₁, hadded₁⟩ :=
    header_new (r := { r with indentLevel := 0 }) h hs hsingle hfresh
  have hfresh₁ : ∀ kv ∈ options.items, (s, some kv.1) ∉ r₁.added := by
    intro kv _ hmem
    rcases hadded₁ _ hmem with hmem | heq
    · exact hadded _ hmem
    · cases heq
  obtain ⟨r₂, hread, hgoes₂, -⟩ := readLines_options hf ([] :: rest) options.items
    (fun kv hkv => hoptions kv.1 kv.2 (Dict.get_eq_some_iff.mpr hkv)) options.nodup r₁
    hgoes₁.entries hcur hfresh₁
  refine ⟨r₂.appendLine [], ?_, ⟨?_, ?_, ?_, ?_⟩⟩
  · rw [sectionLines, List.cons_append, List.append_assoc, List.singleton_append,
      Reading.readLines, readLine_header hf hs, hheader]
    simp only
    rw [hread, Reading.readLines, readLine_nil hf]
  · rw [view_appendLine_nil hgoes₂.entries, hgoes₂.view, hgoes₁.view]
    exact modify_put options (get_default_view h)
  · exact Sections.All.appendLine hgoes₂.entries fun k e he =>
      he.append stripped_nil List.not_mem_nil rfl
  · rw [(appendLine_frame _ _).1, hgoes₂.failed, hgoes₁.failed]
  · intro e he
    rw [(appendLine_frame _ _).2] at he
    rcases hgoes₂.added e he with he | he
    · exact hgoes₁.added e he
    · exact Or.inr he

theorem readLines_sections (hf : f.inlinePrefixes = []) (items : List (Text × Dict Text Text))
    (hitems : ∀ kv ∈ items, kv.1 ≠ [] ∧ '\n' ∉ kv.1 ∧ kv.1 ≠ defaultSection ∧
      ∀ k v, kv.2.get k = some v → ValueOk f k v)
    (hnodup : (items.map Prod.fst).Nodup) (r : Reading) (h : EntriesOk f r)
    (hfresh : ∀ kv ∈ items, r.view.sections.get kv.1 = none)
    (hadded : ∀ kv ∈ items, ∀ o, (kv.1, o) ∉ r.added) :
    ∃ r', Reading.readLines f r (items.flatMap fun (s, options) => sectionLines s options) =
        (r', none) ∧ r'.failed = r.failed ∧
      r'.view = { r.view with sections := r.view.sections.setAll items } := by
  induction items generalizing r with
  | nil => exact ⟨r, rfl, rfl, rfl⟩
  | cons kv items ih =>
    obtain ⟨s, options⟩ := kv
    obtain ⟨hs, hsingle, hdefault, hoptions⟩ := hitems (s, options) List.mem_cons_self
    obtain ⟨hnot, hrest⟩ := List.nodup_cons.mp hnodup
    have hfresh' : r.parser.sections.get s = none := by
      have hview := hfresh (s, options) List.mem_cons_self
      rw [Reading.view, Sections.map, Dict.get_mapVals, Option.map_eq_none_iff] at hview
      exact hview
    obtain ⟨r₁, hread, hgoes⟩ := readLines_section hf hs hsingle hoptions
      (items.flatMap fun (s, options) => sectionLines s options) r h hfresh'
      (hadded (s, options) List.mem_cons_self)
    have hview : r₁.view = { r.view with sections := r.view.sections.set s options } := by
      rw [hgoes.view, Sections.put, if_neg hdefault]
    have hne : ∀ kv ∈ items, kv.1 ≠ s := by
      intro kv hkv heq
      have hmem : kv.1 ∈ items.map Prod.fst := List.mem_map_of_mem hkv
      exact hnot (heq ▸ hmem)
    obtain ⟨r', hread', hfailed, hview'⟩ := ih (fun kv hkv => hitems kv (List.mem_cons_of_mem _ hkv))
      hrest r₁ hgoes.entries
      (fun kv hkv => by
        rw [hview, Dict.get_set, if_neg (hne kv hkv)]
        exact hfresh kv (List.mem_cons_of_mem _ hkv))
      (fun kv hkv o hmem => by
        rcases hgoes.added _ hmem with hmem | heq
        · exact hadded kv (List.mem_cons_of_mem _ hkv) o hmem
        · exact hne kv hkv (List.mem_singleton.mp heq))
    refine ⟨r', ?_, hfailed.trans hgoes.failed, ?_⟩
    · rw [List.flatMap_cons, hread, hread']
    · rw [hview', hview]
      rfl

/-! ## The round trip -/

/-- What was written is read back: into a parser without sections it brings the sections
that were written, and it overwrites the defaults. -/
theorem readString_write (hf : f.inlinePrefixes = []) {p base : Config} (hp : p.Writable f)
    (hbase : base.Writable f) (hempty : base.sections = .empty) :
    Config.readString f base p.write =
      ({ defaults := base.defaults.update p.defaults, sections := p.sections }, none) := by
  have hstart : EntriesOk f (Reading.start base) := Sections.All.map hbase fun k v hv => hv
  have hviewStart : (Reading.start base).view = base := by
    rw [Reading.view, Reading.start]
    simp [Sections.map, Dict.mapVals, Function.comp_def, Entry.join]
  have hitems : ∀ kv ∈ p.sections.items, kv.1 ≠ [] ∧ '\n' ∉ kv.1 ∧ kv.1 ≠ defaultSection ∧
      ∀ k v, kv.2.get k = some v → ValueOk f k v := by
    intro kv hkv
    have hget : p.sections.get kv.1 = some kv.2 := Dict.get_eq_some_iff.mpr hkv
    obtain ⟨hs, hsingle, hdefault⟩ := hp.named _ _ hget
    exact ⟨hs, hsingle, hdefault, hp.option _ _ hget⟩
  -- the defaults come first, if there are any
  have hdefaults : ∀ rest, ∃ r, Reading.readLines f (Reading.start base)
        ((if p.defaults.items = [] then [] else sectionLines defaultSection p.defaults) ++ rest) =
          Reading.readLines f r rest ∧
      Reading.Goes f (Sections.put defaultSection p.defaults) [defaultSection]
        (Reading.start base) r := by
    intro rest
    split
    · rename_i hnil
      refine ⟨Reading.start base, rfl, ⟨?_, hstart, rfl, fun e he => Or.inl he⟩⟩
      rw [Sections.put, if_pos rfl, Dict.update, hnil]
      rfl
    · have hnone : (Reading.start base).parser.sections.get defaultSection = none := by
        rw [Reading.start, Sections.map, hempty]
        rfl
      exact readLines_section hf (by decide) (by decide) hp.default rest _ hstart hnone
        fun o hmem => absurd hmem List.not_mem_nil
  obtain ⟨r, hread, hgoes⟩ :=
    hdefaults (p.sections.items.flatMap fun (s, options) => sectionLines s options)
  have hview : r.view = { base with defaults := base.defaults.update p.defaults } := by
    rw [hgoes.view, hviewStart, Sections.put, if_pos rfl]
  obtain ⟨r', hread', hfailed, hview'⟩ := readLines_sections hf p.sections.items hitems
    p.sections.nodup r hgoes.entries
    (fun kv hkv => by rw [hview, hempty]; rfl)
    (fun kv hkv o hmem => by
      rcases hgoes.added _ hmem with hmem | heq
      · exact absurd hmem List.not_mem_nil
      · exact (hitems kv hkv).2.2.1 (List.mem_singleton.mp heq))
  rw [Config.readString, write_eq, fileLines_joinLines (not_mem_of_mem_configLines hp), configLines,
    hread, hread']
  simp only [hfailed, hgoes.failed]
  rw [← Reading.view, hview', hview, hempty, Dict.setAll_items]
  rfl

end FlsunT1.Library
