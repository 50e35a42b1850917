/-
  Moonraker/ConfigTransactions.lean --- edits that are cancelled leave no trace.

  `cancel` takes the texts and the maps from copies, and the parser from the text that
  it wrote.  What the parser has read it can write and read back, and the edits never
  add to the defaults, which stay in the parser while it is cleared.
-/
import FlsunT1.Library.ConfigRoundTrip
import FlsunT1.Library.Ensures
import FlsunT1.Moonraker.ConfigEdits

set_option autoImplicit false

namespace FlsunT1.Moonraker

open Library Text

variable {Path : Type} {fs : FileSystem Path} {lower : Lowercase}

/-! ## What was read can be written -/

/-- Each section and each option that is known is in some file. -/
structure Indexed (w : Source Path) : Prop where
  sections : ∀ name indices, w.fileSectionMap.get name = some indices → indices ≠ []
  options : ∀ key indices, w.fileOptionMap.get key = some indices → indices ≠ []

/-- A wrapper whose parser can be written and read back, without pending updates. -/
structure Clean (lower : Lowercase) (w : Source Path) : Prop where
  writable : w.config.Writable (parserFormat lower)
  pending : w.updatesPending = ∅
  indexed : Indexed w

/-- A wrapper that has read a file. -/
structure Filled (lower : Lowercase) (w : Source Path) : Prop extends Clean lower w where
  files : w.files ≠ []

theorem indices_set {α : Type} [DecidableEq α] {m : Dict α (List Nat)}
    (h : ∀ k indices, m.get k = some indices → indices ≠ []) (key : α) (idx : Nat)
    (indices : List Nat) :
    ∀ k indices', (m.set key (idx :: indices)).get k = some indices' → indices' ≠ [] := by
  intro k indices' hget
  rw [Dict.get_set] at hget
  split at hget
  · rw [← Option.some.inj hget]
    exact List.cons_ne_nil _ _
  · exact h k indices' hget

theorem writeBuffer_filled (path : Path) (buffer : List Text) {w : Source Path}
    (h : Filled lower w) : Ensures (Filled lower) (writeBuffer fs lower path buffer w) := by
  rw [writeBuffer]
  split
  · exact .ok h
  · split
    · rename_i config hread
      exact .ok ⟨⟨writable_readString rfl h.writable hread, h.pending,
        ⟨h.indexed.sections, h.indexed.options⟩⟩, h.files⟩
    · exact .error _

theorem parseLine_filled
    {parseFile : Path → Parsing Path → Except (ConfigError Path) (Parsing Path)}
    (hfile : ∀ path p, Filled lower p.source → Ensures (fun p => Filled lower p.source) (parseFile path p))
    (path : Path) (fileIndex : Nat) (line : Text) {p : Parsing Path × Scan}
    (h : Filled lower p.1.source) :
    Ensures (fun p => Filled lower p.1.source) (parseLine fs lower parseFile path fileIndex p line) := by
  obtain ⟨⟨w, visited⟩, scan⟩ := p
  simp only [parseLine]
  refine .ite (fun _ => .ok h) fun _ => .ite (fun _ => .ok h) fun _ => ?_
  split
  · refine .ite (fun _ => ?_) fun _ => .ite (fun _ => .error _) fun _ => .ok ⟨⟨h.writable, h.pending,
      ⟨indices_set h.indexed.sections _ _ _, h.indexed.options⟩⟩, h.files⟩
    refine Ensures.bind (P := fun _ => True) (fun _ _ => trivial) fun paths _ => ?_
    refine Ensures.bind (writeBuffer_filled path scan.buffer h) fun w hw => ?_
    refine Ensures.bind (P := fun p : Parsing Path => Filled lower p.source) ?_ fun p hp => .ok hp
    exact .foldlM (P := fun p : Parsing Path => Filled lower p.source)
      (fun path _ p hp => hfile path p hp) hw
  · exact .ite (fun _ => .error _) fun _ => .ok ⟨⟨h.writable, h.pending,
      ⟨h.indexed.sections, indices_set h.indexed.options _ _ _⟩⟩, h.files⟩

theorem parseFile_filled (depth : Nat) (path : Path) {p : Parsing Path} (h : Clean lower p.source) :
    Ensures (fun p => Filled lower p.source) (parseFile fs lower depth path p) := by
  induction depth generalizing path p with
  | zero => exact .error _
  | succ depth ih =>
    obtain ⟨w, visited⟩ := p
    rw [parseFile]
    split
    · exact .error _
    · refine .ite (fun _ => .error _) fun _ => ?_
      split
      · exact .error _
      · rename_i cfgData _
        refine Ensures.bind (P := fun p : Parsing Path × Scan => Filled lower p.1.source) ?_ ?_
        · refine .foldlM (fun line _ p hp => parseLine_filled (fun path p hp => ih path hp.toClean)
            path _ line hp) ?_
          exact ⟨⟨h.writable, h.pending, ⟨h.indexed.sections, h.indexed.options⟩⟩, by simp⟩
        · intro ps hps
          refine Ensures.bind (writeBuffer_filled path ps.2.buffer hps) fun w hw => .ok hw

theorem readFile_filled {depth : Nat} {mainConf : Path} {w w' : Source Path}
    (h : w.config.Writable (parserFormat lower))
    (hread : readFile fs lower depth mainConf w = .ok w') : Filled lower w' := by
  refine Ensures.map (P := fun p : Parsing Path => Filled lower p.source) ?_ (fun p hp => hp) w' hread
  refine parseFile_filled depth mainConf ⟨⟨h.default, ?_, ?_⟩, rfl, ⟨?_, ?_⟩⟩
  · exact fun s d hd => nomatch hd
  · exact fun s d hd => nomatch hd
  · exact fun name indices hget => nomatch hget
  · exact fun key indices hget => nomatch hget

/-! ## What the edits leave alone -/

theorem sectionMatch_ne_nil (line : Text) : sectionMatch line ≠ some [] := by
  rw [sectionMatch]
  split
  · simp only
    split
    · rename_i hname
      intro h
      exact hname.1 (Option.some.inj h)
    · exact fun h => nomatch h
  · exact fun h => nomatch h

/-- No section without a name is found. -/
theorem findSectionInfo_nil (fileData : List Text) : findSectionInfo [] fileData = none := by
  rw [findSectionInfo]
  suffices ∀ (numbered : List (Text × Nat)) (s : Finding), s.result = none →
      (numbered.foldl (findLine []) s).result = none from this _ _ rfl
  intro numbered
  induction numbered with
  | nil => exact fun s h => h
  | cons n numbered ih =>
    intro s h
    refine ih _ ?_
    obtain ⟨line, idx⟩ := n
    simp only [findLine, h, Option.map_none]
    split
    · exact h
    · split
      · rfl
      · cases hmatch : sectionMatch (expandTabs 8 line) with
        | none => rfl
        | some cursec =>
          have hne : [] ≠ cursec := by
            rintro rfl
            exact sectionMatch_ne_nil _ hmatch
          simp only [if_neg hne]

/-- A line with an empty pair of brackets is an error. -/
theorem testParser_brackets {text : Text} (h : ['[', ']'] ∈ fileLines text) :
    testParser lower text = none := by
  have hline : ∀ r r' : Reading,
      r.readLine (parserFormat lower) ['[', ']'] = .ok r' → r'.failed = true := by
    intro r r' hr
    have hindent : ¬(r.cursect.isSome = true ∧ r.optname ≠ [] ∧ r.indentLevel < indent ['[', ']']) :=
      fun h => absurd h.2.2 (Nat.not_lt_zero _)
    have hoption : optionOf ['[', ']'] = none := by decide
    have hstart : commentStart (parserFormat lower) ['[', ']'] = none := by
      rw [commentStart_eq rfl]
      rfl
    have hstrip : strip ['[', ']'] = ['[', ']'] := by decide
    have hheader : headerOf ['[', ']'] = none := by decide
    simp only [Reading.readLine, hstart, Option.elim_none, hstrip, if_neg (List.cons_ne_nil _ _),
      if_neg hindent, hheader] at hr
    cases hcur : r.cursect with
    | none => simp only [hcur, reduceCtorEq] at hr
    | some s =>
      simp only [hcur, hoption, Except.ok.injEq] at hr
      rw [← hr]
  have hlines : ∀ (lines : List Text) (r r' : Reading), ['[', ']'] ∈ lines →
      Reading.readLines (parserFormat lower) r lines = (r', none) → r'.failed = true := by
    intro lines
    induction lines with
    | nil => exact fun r r' hmem => absurd hmem List.not_mem_nil
    | cons line lines ih =>
      intro r r' hmem hr
      rw [Reading.readLines] at hr
      cases hread : r.readLine (parserFormat lower) line with
      | error e =>
        rw [hread] at hr
        cases hr
      | ok r₁ =>
        rw [hread] at hr
        rcases List.mem_cons.mp hmem with rfl | hmem
        · exact failed_readLines rfl hr (hline r r₁ hread)
        · exact ih r₁ r' hmem hr
  rw [testParser]
  split
  · rename_i config hread
    rw [Config.readString] at hread
    cases hr : Reading.readLines (parserFormat lower) (Reading.start Sections.empty) (fileLines text) with
    | mk r e =>
      simp only [hr, Prod.mk.injEq] at hread
      cases e with
      | some e => cases hread.2
      | none =>
        rw [hlines _ _ _ h hr] at hread
        cases hread.2
  · rfl

theorem testParser_setLines_nil (option value : Text) (buf : List Text) :
    testParser lower (unlines (setLines [] option value buf ++ [[]])) = none := by
  apply testParser_brackets
  apply mem_fileLines_unlines
  · rw [setLines, findSectionInfo_nil]
    exact List.mem_append_right _ List.mem_cons_self
  · decide

/-- What an edit may change: nothing becomes less pending, the defaults do not grow, and
where nothing is pending afterwards nothing has changed. -/
structure Touched (w w' : Source Path) : Prop where
  files : w'.files = w.files
  backup : w'.backup = w.backup
  pending : w.updatesPending ⊆ w'.updatesPending
  defaults : ∀ k v, w'.config.defaults.get k = some v → w.config.defaults.get k = some v
  noDefault : w.config.sections.get defaultSection = none →
    w'.config.sections.get defaultSection = none
  indexed : Indexed w → Indexed w'
  changed : w'.updatesPending.Nonempty ∨ w' = w

namespace Touched

variable {w w' w'' : Source Path}

theorem refl (w : Source Path) : Touched w w :=
  ⟨rfl, rfl, Finset.Subset.refl _, fun _ _ h => h, id, id, Or.inr rfl⟩

theorem trans (h : Touched w w') (h' : Touched w' w'') : Touched w w'' := by
  refine ⟨h'.files.trans h.files, h'.backup.trans h.backup, h.pending.trans h'.pending,
    fun k v hk => h.defaults k v (h'.defaults k v hk), fun hn => h'.noDefault (h.noDefault hn),
    fun hi => h'.indexed (h.indexed hi), ?_⟩
  rcases h'.changed with hne | rfl
  · exact Or.inl hne
  · exact h.changed

end Touched

theorem addSection_frame {c c' : Config} {name : Text} (h : c.addSection name = .ok c') :
    c'.defaults = c.defaults ∧ name ≠ defaultSection ∧
      (c.sections.get defaultSection = none → c'.sections.get defaultSection = none) := by
  rw [Config.addSection] at h
  split at h
  · cases h
  · rename_i hname
    split at h
    · cases h
    · cases h
      refine ⟨rfl, hname, fun hnone => ?_⟩
      rw [Dict.get_set, if_neg (Ne.symm hname)]
      exact hnone

theorem setOption_frame {c c' : Config} {f : ConfigFormat} {name option value : Text}
    (hne : name ≠ []) (hname : name ≠ defaultSection) (h : c.setOption f name option value = .ok c') :
    c'.defaults = c.defaults ∧
      (c.sections.get defaultSection = none → c'.sections.get defaultSection = none) := by
  rw [Config.setOption, if_neg (not_or.mpr ⟨hne, hname⟩)] at h
  split at h
  · cases h
  · cases h
    refine ⟨rfl, fun hnone => ?_⟩
    rw [Dict.get_set, if_neg (Ne.symm hname)]
    exact hnone

theorem removeOption_frame {c c' : Config} {f : ConfigFormat} {name option : Text}
    (h : c.removeOption f name option = .ok c') :
    (∀ k v, c'.defaults.get k = some v → c.defaults.get k = some v) ∧
      (c.sections.get defaultSection = none → c'.sections.get defaultSection = none) := by
  rw [Config.removeOption] at h
  split at h
  · cases h
    refine ⟨fun k v hk => ?_, fun hnone => hnone⟩
    rw [Dict.get_erase] at hk
    split at hk
    · cases hk
    · exact hk
  · rename_i hname
    split at h
    · cases h
    · cases h
      refine ⟨fun k v hk => hk, fun hnone => ?_⟩
      rw [Dict.get_set, if_neg (Ne.symm (not_or.mp hname).2)]
      exact hnone

theorem setOption_touched (name option value : Text) {w : Source Path}
    (h : w.config.sections.get defaultSection = none) :
    Touched w (setOption lower name option value w).1 := by
  rw [setOption]
  split
  · exact .refl w
  · simp only
    split
    · exact .refl w
    · split
      · rename_i hoption
        have hne : name ≠ [] := by
          rintro rfl
          rw [testParser_setLines_nil] at hoption
          cases hoption
        obtain ⟨fileIdx, hasSec, hasOpt⟩ := placeOf name option w
        have hindexed : Indexed w → Indexed { w with
            fileSectionMap := if hasSec then w.fileSectionMap else w.fileSectionMap.set name [fileIdx]
            fileOptionMap :=
              if hasOpt then w.fileOptionMap else w.fileOptionMap.set (name, option) [fileIdx] } := by
          intro hi
          constructor
          · cases hasSec with
            | true => exact hi.sections
            | false => exact indices_set hi.sections _ _ _
          · cases hasOpt with
            | true => exact hi.options
            | false => exact indices_set hi.options _ _ _
        have hindexed' : ∀ hi : Indexed w, ∀ w' : Source Path,
            w'.fileSectionMap = (if hasSec then w.fileSectionMap else w.fileSectionMap.set name [fileIdx]) →
            w'.fileOptionMap = (if hasOpt then w.fileOptionMap
              else w.fileOptionMap.set (name, option) [fileIdx]) → Indexed w' := by
          intro hi w' hs ho
          exact ⟨hs ▸ (hindexed hi).sections, ho ▸ (hindexed hi).options⟩
        -- the section is there or is added, and then the option is set in it
        cases hadded : (if w.config.hasSection name then Except.ok w.config
          else w.config.addSection name) with
        | error e =>
          exact ⟨rfl, rfl, Finset.subset_insert _ _, fun _ _ hk => hk, id,
            fun hi => hindexed' hi _ rfl rfl, Or.inl (Finset.insert_nonempty _ _)⟩
        | ok config =>
          have hframe : config.defaults = w.config.defaults ∧ name ≠ defaultSection ∧
              config.sections.get defaultSection = none := by
            split at hadded
            · rename_i hsection
              cases hadded
              refine ⟨rfl, ?_, h⟩
              rintro rfl
              rw [Config.hasSection, h] at hsection
              cases hsection
            · obtain ⟨hdef, hname, hnone⟩ := addSection_frame hadded
              exact ⟨hdef, hname, hnone h⟩
          obtain ⟨hdef, hname, hnone⟩ := hframe
          simp only
          cases hset : config.setOption (parserFormat lower) name option (strip value) with
          | error e =>
            exact ⟨rfl, rfl, Finset.subset_insert _ _, fun _ _ hk => hdef ▸ hk, fun _ => hnone,
              fun hi => hindexed' hi _ rfl rfl, Or.inl (Finset.insert_nonempty _ _)⟩
          | ok config' =>
            obtain ⟨hdef', hnone'⟩ := setOption_frame hne hname hset
            refine ⟨rfl, rfl, Finset.subset_insert _ _, fun _ _ hk => ?_, fun _ => hnone' hnone,
              fun hi => hindexed' hi _ rfl rfl, Or.inl (Finset.insert_nonempty _ _)⟩
            rw [← hdef, ← hdef']
            exact hk
      · exact .refl w

/-- The texts that are pending are the only change. -/
structure Applied (w w' : Source Path) : Prop where
  files : w'.files = w.files
  backup : w'.backup = w.backup
  config : w'.config = w.config
  sections : w'.fileSectionMap = w.fileSectionMap
  options : w'.fileOptionMap = w.fileOptionMap
  pending : w.updatesPending ⊆ w'.updatesPending

theorem applyPending_applied (pending : List (Nat × Text)) (w : Source Path) :
    Applied w (applyPending pending w) := by
  induction pending generalizing w with
  | nil => exact ⟨rfl, rfl, rfl, rfl, rfl, Finset.Subset.refl _⟩
  | cons p pending ih =>
    have h := ih { w with
      updatesPending := insert p.1 w.updatesPending
      rawConfigData := w.rawConfigData.set p.1 p.2 }
    exact ⟨h.files, h.backup, h.config, h.sections, h.options, (Finset.subset_insert _ _).trans h.pending⟩

theorem applyPending_nonempty {edit : Text → Option Text} {raw : List Text} {indices : List Nat}
    {pending : List (Nat × Text)} (hne : indices ≠ [])
    (h : editFiles edit raw indices = .ok pending) (w : Source Path) :
    (applyPending pending w).updatesPending.Nonempty := by
  obtain ⟨idx, indices, rfl⟩ := List.exists_cons_of_ne_nil hne
  rw [editFiles] at h
  split at h
  · cases h
  · rename_i text _
    cases hrest : editFiles edit raw indices with
    | error e =>
      rw [hrest] at h
      cases h
    | ok rest =>
      rw [hrest] at h
      cases h
      have happlied := applyPending_applied rest { w with
        updatesPending := insert idx w.updatesPending
        rawConfigData := w.rawConfigData.set idx text }
      exact (Finset.insert_nonempty _ _).mono happlied.pending

theorem indices_erase {α : Type} [DecidableEq α] {m : Dict α (List Nat)}
    (h : ∀ k indices, m.get k = some indices → indices ≠ []) (key : α) :
    ∀ k indices, (m.erase key).get k = some indices → indices ≠ [] := by
  intro k indices hget
  rw [Dict.get_erase] at hget
  split at hget
  · cases hget
  · exact h k indices hget

theorem removeOption_touched (name option : Text) {w : Source Path} (hi : Indexed w) :
    Touched w (removeOption lower name option w).1 := by
  rw [removeOption]
  split
  · exact .refl w
  · split
    · exact .refl w
    · rename_i indices hindices
      split
      · exact .refl w
      · rename_i pending hpending
        have h := applyPending_applied pending w
        have hne := applyPending_nonempty (hi.options _ _ hindices) hpending w
        have hindexed : ∀ w' : Source Path, w'.fileSectionMap = w.fileSectionMap →
            w'.fileOptionMap = (applyPending pending w).fileOptionMap.erase (name, option) → Indexed w' := by
          intro w' hs ho
          refine ⟨hs ▸ hi.sections, ?_⟩
          rw [ho, h.options]
          exact indices_erase hi.options _
        simp only
        cases hremove : (applyPending pending w).config.removeOption (parserFormat lower) name option with
        | error e =>
          refine ⟨h.files, h.backup, h.pending, fun k v hk => ?_, fun hnone => ?_,
            fun _ => hindexed _ h.sections rfl, Or.inl hne⟩
          · rw [← h.config]
            exact hk
          · rw [← h.config] at hnone
            exact hnone
        | ok config =>
          obtain ⟨hdef, hnone⟩ := removeOption_frame hremove
          rw [h.config] at hdef hnone
          exact ⟨h.files, h.backup, h.pending, hdef, hnone, fun _ => hindexed _ h.sections rfl, Or.inl hne⟩

theorem addSection_touched (name : Text) (w : Source Path) :
    Touched w (addSection lower name w).1 := by
  rw [addSection]
  split
  · exact .refl w
  · split
    · exact .refl w
    · simp only
      generalize unlines _ = updatedCfg
      split
      · have hsections : Indexed w → ∀ k indices,
            (w.fileSectionMap.set name [0]).get k = some indices → indices ≠ [] :=
          fun hi => indices_set hi.sections name 0 []
        cases hadded : w.config.addSection name with
        | error e =>
          exact ⟨rfl, rfl, Finset.subset_insert _ _, fun _ _ hk => hk, id,
            fun hi => ⟨hsections hi, hi.options⟩, Or.inl (Finset.insert_nonempty _ _)⟩
        | ok config =>
          obtain ⟨hdef, -, hnone⟩ := addSection_frame hadded
          exact ⟨rfl, rfl, Finset.subset_insert _ _, fun _ _ hk => hdef ▸ hk, hnone,
            fun hi => ⟨hsections hi, hi.options⟩, Or.inl (Finset.insert_nonempty _ _)⟩
      · exact .refl w

theorem removeSection_touched (name : Text) {w : Source Path} (hi : Indexed w) :
    Touched w (removeSection lower name w).1 := by
  rw [removeSection]
  split
  · exact .refl w
  · split
    · exact .refl w
    · rename_i indices hindices
      split
      · exact .refl w
      · rename_i pending hpending
        have h := applyPending_applied pending w
        have hne := applyPending_nonempty (hi.sections _ _ hindices) hpending w
        simp only
        generalize applyPending pending w = u at h hne
        refine ⟨h.files, h.backup, h.pending, fun k v hk => ?_, fun hnone => ?_, fun _ => ⟨?_, ?_⟩,
          Or.inl hne⟩
        · rw [← h.config]
          exact hk
        · simp only [Config.removeSection, Dict.get_erase, h.config, hnone, ite_self]
        · simp only [h.sections]
          exact indices_erase hi.sections _
        · simp only [h.options]
          exact hi.options

theorem edit_touched {w : Source Path} (h : w.config.sections.get defaultSection = none)
    (hi : Indexed w) (e : Edit) : Touched w (edit lower w e).1 := by
  cases e with
  | setOption name option value => exact setOption_touched name option value h
  | removeOption name option => exact removeOption_touched name option hi
  | addSection name => exact addSection_touched name w
  | removeSection name => exact removeSection_touched name hi

/-- The wrapper after some edits, each of which may fail. -/
def edits (lower : Lowercase) (es : List Edit) (w : Source Path) : Source Path :=
  es.foldl (fun w e => (edit lower w e).1) w

theorem edits_touched (es : List Edit) {w : Source Path}
    (h : w.config.sections.get defaultSection = none) (hi : Indexed w) :
    Touched w (edits lower es w) := by
  induction es generalizing w with
  | nil => exact .refl w
  | cons e es ih =>
    have he : Touched w (edit lower w e).1 := edit_touched h hi e
    exact he.trans (ih (he.noDefault h) (he.indexed hi))

/-! ## Rolling back -/

/-- The wrapper `w` holds what `w₀` held; the defaults may stand in another order. -/
structure Restored (w₀ w : Source Path) : Prop where
  rawConfigData : w.rawConfigData = w₀.rawConfigData
  fileSectionMap : w.fileSectionMap = w₀.fileSectionMap
  fileOptionMap : w.fileOptionMap = w₀.fileOptionMap
  sections : w.config.sections = w₀.config.sections
  defaults : ∀ k, w.config.defaults.get k = w₀.config.defaults.get k

theorem noDefault_of_filled {w : Source Path} (h : Filled lower w) :
    w.config.sections.get defaultSection = none := by
  cases hd : w.config.sections.get defaultSection with
  | none => rfl
  | some d => exact absurd rfl (h.writable.named _ d hd).2.2

theorem backupSource_filled {w : Source Path} (h : Filled lower w) : Filled lower (backupSource w) :=
  ⟨⟨h.writable, h.pending, ⟨h.indexed.sections, h.indexed.options⟩⟩, h.files⟩

/-- After any edits `cancel` returns what there was at the backup. -/
theorem cancel_restores {w : Source Path} (h : Filled lower w) (es : List Edit) :
    (cancel lower (edits lower es (backupSource w))).2 = none ∧
      Restored w (cancel lower (edits lower es (backupSource w))).1 ∧
      (cancel lower (edits lower es (backupSource w))).1.updatesPending = ∅ := by
  have ht : Touched (backupSource w) (edits lower es (backupSource w)) :=
    edits_touched es (noDefault_of_filled (backupSource_filled h)) (backupSource_filled h).indexed
  generalize edits lower es (backupSource w) = t at ht
  have hfiles : t.files ≠ [] := by
    rw [ht.files]
    exact h.files
  rw [cancel, if_neg hfiles, ht.backup]
  simp only [backupSource]
  split
  · rename_i hpending
    rcases ht.changed with hne | rfl
    · rw [hpending] at hne
      exact absurd hne Finset.not_nonempty_empty
    · exact ⟨rfl, ⟨rfl, rfl, rfl, rfl, fun _ => rfl⟩, h.pending⟩
  · -- the parser is written by `backup_source` and read by `cancel`
    have hclear : t.config.clear.Writable (parserFormat lower) := by
      refine ⟨fun k v hk => h.writable.default k v (ht.defaults k v hk), ?_, ?_⟩
      · exact fun s d hd => nomatch hd
      · exact fun s d hd => nomatch hd
    rw [readString_write rfl h.writable hclear rfl]
    refine ⟨rfl, ⟨rfl, rfl, rfl, rfl, fun k => ?_⟩, rfl⟩
    rw [Dict.get_update]
    cases hk : w.config.defaults.get k with
    | some v => rfl
    | none =>
      cases hk' : t.config.clear.defaults.get k with
      | none => rfl
      | some v =>
        rw [show w.config.defaults.get k = some v from ht.defaults k v hk'] at hk
        cases hk

theorem cancel_of_no_backup {w : Source Path} (hfiles : w.files ≠ []) (hbackup : w.backup = none) :
    cancel lower w = (w, none) := by
  rw [cancel, if_neg hfiles, hbackup]

theorem doSave_frame (w : Source Path) :
    (doSave w).1.files = w.files ∧ (doSave w).1.backup = none ∧ (doSave w).1.config = w.config ∧
      (doSave w).1.fileSectionMap = w.fileSectionMap ∧ (doSave w).1.fileOptionMap = w.fileOptionMap := by
  rw [doSave]
  simp only
  split
  · exact ⟨rfl, rfl, rfl, rfl, rfl⟩
  · exact ⟨rfl, rfl, rfl, rfl, rfl⟩

theorem cancel_after_save {w : Source Path} (h : Filled lower w) (es later : List Edit) :
    cancel lower (edits lower later (doSave (edits lower es (backupSource w))).1) =
      (edits lower later (doSave (edits lower es (backupSource w))).1, none) := by
  have ht : Touched (backupSource w) (edits lower es (backupSource w)) :=
    edits_touched es (noDefault_of_filled (backupSource_filled h)) (backupSource_filled h).indexed
  obtain ⟨hfiles, hbackup, hconfig, hsections, hoptions⟩ := doSave_frame (edits lower es (backupSource w))
  generalize (doSave (edits lower es (backupSource w))).1 = s at hfiles hbackup hconfig hsections hoptions
  have hi : Indexed (edits lower es (backupSource w)) := ht.indexed (backupSource_filled h).indexed
  have hlater : Touched s (edits lower later s) := by
    refine edits_touched later ?_ ⟨hsections ▸ hi.sections, hoptions ▸ hi.options⟩
    rw [hconfig]
    exact ht.noDefault (noDefault_of_filled (backupSource_filled h))
  refine cancel_of_no_backup ?_ (hlater.backup.trans hbackup)
  rw [hlater.files, hfiles, ht.files]
  exact h.files

/-- A backup of a configuration that was read, followed by edits that succeed or fail: a
cancel restores the texts, the maps and the parser and leaves nothing pending, and after a
save a later cancel changes nothing. -/
theorem transaction_rolls_back {depth : Nat} {mainConf : Path} {w : Source Path}
    (hread : readFile fs lower depth mainConf Source.init = .ok w) (es : List Edit) :
    (cancel lower (edits lower es (backupSource w))).2 = none ∧
      Restored w (cancel lower (edits lower es (backupSource w))).1 ∧
      (cancel lower (edits lower es (backupSource w))).1.updatesPending = ∅ ∧
      ∀ later, cancel lower (edits lower later (doSave (edits lower es (backupSource w))).1) =
        (edits lower later (doSave (edits lower es (backupSource w))).1, none) := by
  have h : Filled lower w := readFile_filled (w := Source.init) Sections.All.empty hread
  obtain ⟨hnone, hrestored, hpending⟩ := cancel_restores h es
  exact ⟨hnone, hrestored, hpending, fun later => cancel_after_save h es later⟩

/-- One file, with a value of two lines and an escaped comment. -/
def oneFile : FileSystem Unit where
  stat _ := some (1, 1)
  readText _ := some "[server]\nhost: a \\#b\n  c\n\n[machine]\n".toList
  globRoot _ := none
  glob _ _ := none
  isFile _ := true
  readable _ := true

theorem transaction_rolls_back_oneFile : ∃ w, readFile oneFile .ascii 1 () Source.init = .ok w ∧
    Restored w (cancel .ascii (edits .ascii
      [.setOption "server".toList "host".toList "d".toList, .removeSection "machine".toList]
      (backupSource w))).1 := by
  cases hread : readFile oneFile .ascii 1 () Source.init with
  | ok w => exact ⟨w, rfl, (transaction_rolls_back hread _).2.1⟩
  | error e =>
    have hok : (readFile oneFile .ascii 1 () Source.init).toOption.isSome = true := by decide +kernel
    rw [hread] at hok
    cases hok

end FlsunT1.Moonraker
