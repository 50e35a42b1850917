/-
  Klippy/SdExclude.lean --- the end of a print whose objects are all excluded.

  A line that raises `exclude_object over` moves the file position to the end of the
  file, but the handler keeps the lines it has already read.
-/
import FlsunT1.Klippy.SdPause

set_option autoImplicit false

namespace FlsunT1.Klippy

open Library

variable {σ : Type*}

/-- Scripts leave the file and the handler alone, up to the flags that they are given. -/
def Host.ScriptsLeave (h : Host σ) : Prop :=
  ∀ script w, ∃ b position, (h.runScript script w).2.sd =
    { w.sd with nextFilePosition := position, mustPauseWork := b }

/-- The handler is in its loop, on a file that was loaded and is open. -/
structure InLoop (data : Bytes) (l : Loop σ) : Prop where
  file : ∃ offset, l.sd.currentFile = some ⟨data, offset⟩
  size : l.sd.fileSize = data.length
  restart : l.sd.powerLossRestart = false
  timer : l.sd.workTimer = true
  started : l.sd.printStats.started = true
  noError : l.errorMessage = none

/-- The line, run by the handler `l`, raises the error that ends the print, with the rest
of the buffer in `lines`; that leaves the handler `l'`. -/
def RaisesOver (h : Host σ) (l : Loop σ) (line : Bytes) (lines : List Bytes) (l' : Loop σ) :
    Prop :=
  ∃ l₁ message, preCheck h { l with
        sd := { l.sd with
          cmdFromSd := true, nextFilePosition := l.sd.filePosition + line.length + 1 }
        lines := lines } = (.ok false, l₁) ∧
    runLine h l₁ line = (some (.error message), l') ∧
    isSubstring "exclude_object over" message = true

section Over

variable {h : Host σ} {data : Bytes}

/-- What the handler keeps when the state of the virtual sd card changes in its flags
only. -/
theorem InLoop.flags {l l' : Loop σ} (hl : InLoop data l) {b c : Bool} {position position' : Nat}
    (hsd : l'.sd = { l.sd with
      filePosition := position', nextFilePosition := position, mustPauseWork := b, cmdFromSd := c })
    (herror : l'.errorMessage = none) : InLoop data l' := by
  refine ⟨?_, ?_, ?_, ?_, ?_, herror⟩
  · rw [hsd]
    exact hl.file
  · rw [hsd]
    exact hl.size
  · rw [hsd]
    exact hl.restart
  · rw [hsd]
    exact hl.timer
  · rw [hsd]
    exact hl.started

theorem preCheck_ok {l l' : Loop σ} {stop : Bool} (hleaves : h.Leaves fun _ => ())
    (hcheck : preCheck h l = (.ok stop, l')) :
    l'.lines = l.lines ∧ l'.hasPreCheck = true ∧ l'.errorMessage = l.errorMessage ∧
      ∃ b, l'.sd = { l.sd with mustPauseWork := b } := by
  unfold preCheck at hcheck
  split at hcheck
  · rename_i hdone
    rw [Prod.mk.injEq] at hcheck
    rw [← hcheck.2]
    exact ⟨rfl, hdone, rfl, l.sd.mustPauseWork, rfl⟩
  · rw [Prod.mk.injEq] at hcheck
    rw [← hcheck.2]
    exact ⟨rfl, rfl, rfl, (hleaves.checkToPause l.toWorld).2.sd⟩

theorem runLine_leaves {l l' : Loop σ} {line : Bytes} {e : Option Raised}
    (hscripts : h.ScriptsLeave) (hran : runLine h l line = (e, l')) :
    l'.lines = l.lines ∧ l'.hasPreCheck = l.hasPreCheck ∧ l'.errorMessage = l.errorMessage ∧
      ∃ b position, l'.sd = { l.sd with nextFilePosition := position, mustPauseWork := b } := by
  unfold runLine at hran
  split at hran
  · rw [Prod.mk.injEq] at hran
    rw [← hran.2]
    exact ⟨rfl, rfl, rfl, l.sd.mustPauseWork, l.sd.nextFilePosition, rfl⟩
  · rename_i text htext
    have hsd := hscripts text { l.toWorld with
      host := h.recordGcodeBegin text l.sd.filePosition l.host }
    dsimp only at hran
    split at hran
    · rw [Prod.mk.injEq] at hran
      rw [← hran.2]
      exact ⟨rfl, rfl, rfl, hsd⟩
    · rw [Prod.mk.injEq] at hran
      rw [← hran.2]
      exact ⟨rfl, rfl, rfl, hsd⟩

theorem runCaught_leaves (hscripts : h.ScriptsLeave) (script : Option String) (w : World σ) :
    ∃ b position, (runCaught h script w).sd =
      { w.sd with nextFilePosition := position, mustPauseWork := b } := by
  cases script with
  | none => exact ⟨w.sd.mustPauseWork, w.sd.nextFilePosition, rfl⟩
  | some script => exact hscripts script w

/-- After the error the handler goes on with the lines that it has read, at the end of the
file. -/
theorem step_raisesOver (hleaves : h.Leaves fun _ => ()) (hscripts : h.ScriptsLeave)
    {l l' : Loop σ} {line : Bytes} {lines : List Bytes} (hl : InLoop data l)
    (hpause : l.sd.mustPauseWork = false) (hlines : l.lines = line :: lines)
    (hfree : h.mutexTest l.host = false) (hraises : RaisesOver h l line lines l') :
    ∃ l₂, step h (.working l) = .working l₂ ∧ l₂.lines = lines ∧ l₂.hasPreCheck = true ∧
      Running data (fun _ => ()) ⟨(), data.length, l₂.log⟩ data.length l₂ := by
  obtain ⟨l₁, message, hcheck, hran, hover⟩ := hraises
  obtain ⟨hlines₁, hdone₁, herror₁, b₁, hsd₁⟩ := preCheck_ok hleaves hcheck
  obtain ⟨hlines', hdone', herror', b', position', hsd'⟩ := runLine_leaves hscripts hran
  have hl' : InLoop data l' := by
    have hsd : l'.sd = { l.sd with
        filePosition := l.sd.filePosition, nextFilePosition := position'
        mustPauseWork := b', cmdFromSd := true } := by
      rw [hsd', hsd₁]
    exact hl.flags hsd (herror'.trans (herror₁.trans hl.noError))
  obtain ⟨b, position, hsd⟩ := runCaught_leaves hscripts (h.excludeObjectGcode l'.host)
    { l'.toWorld with sd := { l'.sd with filePosition := l'.sd.fileSize } }
  obtain ⟨offset, hfile⟩ := hl'.file
  have hstep := step_working (h := h) hpause
  rw [round_line hlines hfree] at hstep
  simp only [dispatchRound, hcheck, hran, lineRaised, hover, if_true, excludeObjectOver] at hstep
  generalize hw : runCaught h (h.excludeObjectGcode l'.host)
    { l'.toWorld with sd := { l'.sd with filePosition := l'.sd.fileSize } } = w at hsd hstep
  have hfile' : w.sd.currentFile = some ⟨data, offset⟩ := by
    rw [hsd]
    exact hfile
  have hposition : w.sd.filePosition = data.length := by
    rw [hsd]
    exact hl'.size
  simp only [hfile'] at hstep
  refine ⟨_, hstep, hlines'.trans hlines₁, hdone'.trans hdone₁,
    ⟨⟨?_, hposition, rfl⟩, ?_, ?_, ?_, rfl, rfl⟩⟩
  · simp only [VirtualSd.seek, hsd, hl'.restart]
  · simp only [VirtualSd.seek, hsd, hl'.timer]
  · simp only [VirtualSd.seek, hsd, hl'.started]
  · simp only [VirtualSd.seek, hposition]

theorem dispatchRound_undecodable {l : Loop σ} {line : Bytes} {lines : List Bytes}
    (hdone : l.hasPreCheck = true) (hdecode : decodeUtf8 line = none) :
    dispatchRound h l line lines = .done { l with
      sd := { l.sd with
        cmdFromSd := true, nextFilePosition := l.sd.filePosition + line.length + 1 }
      lines := lines } := by
  simp only [dispatchRound, preCheck, hdone, if_true, runLine, hdecode, lineRaised]

theorem Running.leads_over {abs : σ → Unit} (hleaves : h.Leaves abs) (hprompt : h.Prompt)
    {s : Printed Unit} {offset : Nat} {l : Loop σ} (hl : Running data abs s offset l)
    (hend : data.length ≤ s.position) (hoffset : data.length ≤ offset)
    (hdone : l.hasPreCheck = true)
    (hstop : l.lines = [] ∨ l.sd.mustPauseWork = true ∨
      ∃ line lines, l.lines = line :: lines ∧ decodeUtf8 line = none) :
    ∃ w after, Leads h (.working l) (.complete w s.log after) ∧
      Stands data abs s (.complete w s.log after) := by
  have hnone : nextLine data s.position = none := nextLine_eq_none_of_le hend
  -- a run that ends is resumed, at the end of the file
  have hidle : ∀ {p : Print σ} {l' : Loop σ}, Running data abs s offset l' →
      Leads h p (Klippy.endWork h l') → ∃ w after, Leads h p (.complete w s.log after) ∧
        Stands data abs s (.complete w s.log after) := by
    intro p l' hl' hlead
    obtain ⟨w, hwork, hstands⟩ := hl'.endWork (h := h)
    obtain ⟨w', after, hlead', hcomplete⟩ := hstands.leads_complete hleaves hprompt trivial hnone
    rw [hwork] at hlead
    exact ⟨w', after, hlead.trans hlead', hcomplete⟩
  cases hpause : l.sd.mustPauseWork with
  | true => exact hidle hl (.single (by rw [step, if_pos hpause]))
  | false =>
    rcases hstop with hlines | hpaused | ⟨line, lines, hlines, hdecode⟩
    · obtain ⟨l', w, after, hround, hwork, hstands⟩ := hl.readEnd hleaves hnone hlines
        (by rw [List.drop_eq_nil_of_le hoffset, List.take_nil])
      exact ⟨w, after, .single (by rw [step_working hpause, hround, Flow.print, hwork]), hstands⟩
    · rw [hpause] at hpaused
      cases hpaused
    · obtain ⟨w, hlead, hkeeps, hpause', hfree⟩ := leads_free hleaves hprompt hlines hpause
      have hl' := hl.withWorld hkeeps
      have hstep := step_working (h := h) (l := l.withWorld w) hpause'
      rw [round_line (l := l.withWorld w) hlines hfree,
        dispatchRound_undecodable (l := l.withWorld w) hdone hdecode] at hstep
      rw [Flow.print] at hstep
      refine hidle ?_ (hlead.trans (.single hstep))
      exact ⟨⟨hl'.world.restart, hl'.world.position, hl'.world.state⟩, hl'.timer, hl'.started,
        hl'.file, hl'.noError, hl'.log⟩

/-- A handler that can decode its next line dispatches it, wherever the file position
is. -/
theorem leads_dispatched (hleaves : h.Leaves fun _ => ()) (hprompt : h.Prompt) {l : Loop σ}
    {line : Bytes} {lines : List Bytes} {text : String} (hlines : l.lines = line :: lines)
    (hdone : l.hasPreCheck = true) (hpause : l.sd.mustPauseWork = false)
    (hdecode : decodeUtf8 line = some text) :
    ∃ p position, Leads h (.working l) p ∧ p.log = l.log ++ [(position, text)] := by
  obtain ⟨w, hlead, -, hpause', hfree⟩ := leads_free hleaves hprompt hlines hpause
  have hstep := step_working (h := h) (l := l.withWorld w) hpause'
  rw [round_line (l := l.withWorld w) hlines hfree] at hstep
  refine ⟨_, w.sd.filePosition, hlead.trans (.single hstep), ?_⟩
  rw [Flow.print_log, dispatchRound_log h (l := l.withWorld w) (if_pos hdone), runLine_log, hdecode, Option.map_some,
    Option.toList_some]
  rfl

end Over

/-- After the error that ends a print, no further line is dispatched and the print is noted
complete at the end of the file, exactly if the buffer holds no line any more, or a pause
was requested, or the next line in the buffer cannot be decoded. -/
theorem excludeOver_iff {h : Host σ} {data : Bytes} {l l' : Loop σ} {line : Bytes}
    {lines : List Bytes} (hleaves : h.Leaves fun _ => ()) (hprompt : h.Prompt)
    (hscripts : h.ScriptsLeave) (hl : InLoop data l) (hpause : l.sd.mustPauseWork = false)
    (hlines : l.lines = line :: lines) (hfree : h.mutexTest l.host = false)
    (hraises : RaisesOver h l line lines l') :
    let p := step h (.working l)
    ((∀ k, ((step h)^[k] p).log = p.log) ∧
      ∃ k, ((step h)^[k] p).Complete ∧
        ((step h)^[k] p).world.sd.filePosition = l.sd.fileSize) ↔
      lines = [] ∨ p.world.sd.mustPauseWork = true ∨
        ∃ line' more, lines = line' :: more ∧ decodeUtf8 line' = none := by
  intro p
  obtain ⟨l₂, hstep, hlines₂, hdone, hrun⟩ :=
    step_raisesOver hleaves hscripts hl hpause hlines hfree hraises
  have hp : p = .working l₂ := hstep
  rw [hp, hl.size]
  constructor
  · rintro ⟨hlog, -⟩
    by_contra hgoes
    rw [not_or, not_or] at hgoes
    obtain ⟨hne, hunpaused, hdecode⟩ := hgoes
    obtain ⟨line', more, hmore⟩ := List.exists_cons_of_ne_nil hne
    cases htext : decodeUtf8 line' with
    | none => exact hdecode ⟨line', more, hmore, htext⟩
    | some text =>
      obtain ⟨q, position, ⟨k, hk⟩, hq⟩ := leads_dispatched hleaves hprompt (hlines₂.trans hmore)
        hdone (Bool.eq_false_iff.mpr hunpaused) htext
      have hsame := hlog k
      rw [hk, hq] at hsame
      exact List.cons_ne_nil _ _ (List.append_right_eq_self.mp hsame)
  · intro hstop
    obtain ⟨w, after, ⟨K, hK⟩, hstands⟩ := hrun.leads_over hleaves hprompt (Nat.le_refl _)
      (Nat.le_refl _) hdone (by rw [hlines₂]; exact hstop)
    have hcomplete : ((step h)^[K] (.working l₂)).Complete := by
      rw [hK]
      cases hstands with
      | complete _ hstate _ _ => exact hstate
    constructor
    · intro k
      rcases Nat.le_total k K with hle | hle
      · have hafter := log_grows h hle (.working l₂)
        rw [hK] at hafter
        exact hafter.eq_of_length_le (log_grows h (Nat.zero_le k) (.working l₂)).length_le
      · obtain ⟨m, rfl⟩ := Nat.exists_eq_add_of_le' hle
        rw [Function.iterate_add_apply, iterate_step_of_complete h m hcomplete, hK]
        rfl
    · refine ⟨K, hcomplete, ?_⟩
      rw [hK]
      cases hstands with
      | complete hposition _ _ _ => exact hposition

/-! ## Two files -/

/-- A program in which the end of an object raises the error. -/
def overHost : Host Unit :=
  { Host.ofCommands straight fun _ _ => false with
    runScript := fun text w =>
      if text = "EXCLUDE_OBJECT_END NAME=A" then (some (.error "exclude_object over"), w)
      else (none, w)
    excludeObjectGcode := fun _ => some "G28" }

theorem overHost_leaves : overHost.Leaves fun _ => () :=
  { (Host.runs_ofCommands straight (fun _ _ => false) []).toLeaves with }

theorem overHost_prompt : overHost.Prompt :=
  { Host.prompt_ofCommands straight fun _ _ => false with }

theorem overHost_scripts : overHost.ScriptsLeave := by
  intro script w
  refine ⟨w.sd.mustPauseWork, w.sd.nextFilePosition, ?_⟩
  simp only [overHost]
  split <;> rfl

/-- The handler at the end of an object, with `lines` read after it. -/
def atObjectEnd (data : Bytes) (lines : List Bytes) : Loop Unit :=
  { sd :=
      { VirtualSd.init.loadFile data 0 with
        currentFile := some ⟨data, data.length⟩, workTimer := true
        printStats := ⟨true, .printing, ""⟩ }
    host := (), lines := encodeUtf8 "EXCLUDE_OBJECT_END NAME=A".toList :: lines
    partialInput := .bytes [], errorMessage := none, hasPreCheck := true, log := [] }

/-- The end of an object on the last line of the file. -/
theorem excludeOver_last :
    ∃ k, ((step overHost)^[k] (step overHost
      (.working (atObjectEnd (encodeUtf8 "EXCLUDE_OBJECT_END NAME=A\n".toList) [])))).Complete := by
  obtain ⟨-, k, hk, -⟩ := (excludeOver_iff
    (l := atObjectEnd (encodeUtf8 "EXCLUDE_OBJECT_END NAME=A\n".toList) []) overHost_leaves
    overHost_prompt overHost_scripts ⟨⟨_, rfl⟩, rfl, rfl, rfl, rfl, rfl⟩ rfl rfl rfl
    ⟨_, _, rfl, rfl, by decide⟩).mpr (.inl rfl)
  exact ⟨k, hk⟩

/-- A file whose next lines are dispatched after the error. -/
theorem excludeOver_lines_left :
    ((step overHost)^[6] (loaded
      (encodeUtf8 "EXCLUDE_OBJECT_END NAME=A\nG1 X1\nG1 X2\n".toList) ())).log =
        [(0, "EXCLUDE_OBJECT_END NAME=A"), (38, "G1 X1"), (44, "G1 X2")] ∧
    ((step overHost)^[6] (loaded
      (encodeUtf8 "EXCLUDE_OBJECT_END NAME=A\nG1 X1\nG1 X2\n".toList) ())).world.sd.filePosition =
        50 ∧
    ((step overHost)^[6] (loaded
      (encodeUtf8 "EXCLUDE_OBJECT_END NAME=A\nG1 X1\nG1 X2\n".toList) ())).world.sd.fileSize =
        38 := by
  decide

end FlsunT1.Klippy
