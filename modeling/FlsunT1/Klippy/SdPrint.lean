/-
  Klippy/SdPrint.lean --- what a print from the virtual sd card dispatches.

  The abstract print goes through the file line by line: it runs the line at its
  position and goes on where that line says.  The handler, with its read buffer, its
  two positions and its pauses, follows it: every state of a print stands for a state
  of the abstract one, and every step keeps that state or takes it one line on.
-/
import Mathlib.Logic.Function.Iterate
import FlsunT1.Klippy.VirtualSd

set_option autoImplicit false

namespace FlsunT1.Klippy

open Library

variable {σ A : Type*}

/-! ## The abstract print -/

/-- What lines do: a line, run in a state, with the position of the line after it, gives
the next state and the position to go on from. -/
abbrev Commands (A : Type*) := A → String → Nat → A × Nat

/-- The line of the file at a position. -/
def nextLine (data : Bytes) (position : Nat) : Option Bytes :=
  (linesOf newline (data.drop position)).head?

/-- An abstract print: its position, and the lines run so far with theirs. -/
structure Printed (A : Type*) where
  state : A
  position : Nat
  log : List (Nat × String)

/-- The line to run, and its text. -/
def Printed.line (data : Bytes) (s : Printed A) : Option (Bytes × String) :=
  (nextLine data s.position).bind fun line => (decodeUtf8 line).map fun text => (line, text)

/-- The next line is run. -/
def Printed.next (C : Commands A) (data : Bytes) (s : Printed A) : Printed A :=
  match s.line data with
  | none => s
  | some (line, text) =>
      let r := C s.state text (s.position + line.length + 1)
      { state := r.1, position := r.2, log := s.log ++ [(s.position, text)] }

/-- The print of a file, after `n` lines. -/
def printed (C : Commands A) (data : Bytes) (a : A) (n : Nat) : Printed A :=
  (Printed.next C data)^[n] ⟨a, 0, []⟩

theorem printed_succ (C : Commands A) (data : Bytes) (a : A) (n : Nat) :
    printed C data a (n + 1) = (printed C data a n).next C data :=
  Function.iterate_succ_apply' _ _ _

theorem Printed.next_eq {C : Commands A} {data line : Bytes} {text : String} {s : Printed A}
    (h : s.line data = some (line, text)) :
    s.next C data =
      { state := (C s.state text (s.position + line.length + 1)).1
        position := (C s.state text (s.position + line.length + 1)).2
        log := s.log ++ [(s.position, text)] } := by
  rw [Printed.next, h]

theorem Printed.next_of_none {C : Commands A} {data : Bytes} {s : Printed A}
    (h : s.line data = none) : s.next C data = s := by
  rw [Printed.next, h]

theorem Printed.line_eq {data line : Bytes} {text : String} {s : Printed A}
    (hline : nextLine data s.position = some line) (htext : decodeUtf8 line = some text) :
    s.line data = some (line, text) := by
  rw [Printed.line, hline, Option.bind_some, htext, Option.map_some]

theorem nextLine_eq_none_of_le {data : Bytes} {position : Nat} (h : data.length ≤ position) :
    nextLine data position = none := by
  rw [nextLine, List.drop_eq_nil_of_le h]
  rfl

/-! ## The rest of the program -/

/-- The text is that of a line of the file. -/
def IsLine (data : Bytes) (text : String) : Prop :=
  ∃ position line, nextLine data position = some line ∧ decodeUtf8 line = some text

/-- Only a pause is requested, or not, and what `abs` sees is as before. -/
structure Keeps (abs : σ → A) (w w' : World σ) : Prop where
  sd : ∃ b, w'.sd = { w.sd with mustPauseWork := b }
  state : abs w'.host = abs w.host

/-- The program may request a pause at any time, and leaves the file, the handler and what
`abs` sees alone. -/
structure Host.Leaves (h : Host σ) (abs : σ → A) : Prop where
  reactorPause : ∀ w, Keeps abs w (h.reactorPause w)
  idle : ∀ w, Keeps abs w (h.idle w)
  readWait : ∀ w, Keeps abs w (h.readWait w)
  readFails : ∀ s, h.readFails s = false
  checkToPause : ∀ w, (∃ stop, (h.checkToPause w).1 = .ok stop) ∧ Keeps abs w (h.checkToPause w).2
  recordGcodeBegin : ∀ text position s, abs (h.recordGcodeBegin text position s) = abs s
  recordGcodeEnd : ∀ s, abs (h.recordGcodeEnd s) = abs s

/-- The program runs the lines of the file as `C` does, where `abs` gives the state of
`C`. -/
structure Host.Runs (h : Host σ) (data : Bytes) (C : Commands A) (abs : σ → A) : Prop
    extends Host.Leaves h abs where
  runScript : ∀ text w, IsLine data text → w.sd.cmdFromSd = true →
    (h.runScript text w).1 = none ∧
      (∃ b, (h.runScript text w).2.sd =
        { w.sd with
          nextFilePosition := (C (abs w.host) text w.sd.nextFilePosition).2
          mustPauseWork := b }) ∧
      abs (h.runScript text w).2.host = (C (abs w.host) text w.sd.nextFilePosition).1

/-- Pauses are requested by lines only, and the g-code lock is not held for ever. -/
structure Host.Prompt (h : Host σ) : Prop where
  reactorPause : ∀ w, (h.reactorPause w).sd.mustPauseWork = w.sd.mustPauseWork
  readWait : ∀ w, (h.readWait w).sd.mustPauseWork = w.sd.mustPauseWork
  checkToPause : ∀ w, (h.checkToPause w).1 = .ok false ∧
    (h.checkToPause w).2.sd.mustPauseWork = w.sd.mustPauseWork
  mutexTest : ∀ w, ∃ n, h.mutexTest (h.reactorPause^[n] w).host = false

/-! ## The buffer of the handler -/

/-- What the handler has read ahead of a position: complete lines, then the part of a
line, then what is still in the file.  After a change of position there is nothing, and
`partial_input` is a text. -/
inductive Buffer (data : Bytes) (position : Nat) : Nat → List Bytes → PartialInput → Prop
  | ahead {offset : Nat} {lines : List Bytes} {b : Bytes} :
      data.drop position = joinLines newline lines ++ (b ++ data.drop offset) →
      (∀ line ∈ lines, newline ∉ line) → newline ∉ b →
      Buffer data position offset lines (.bytes b)
  | jumped : Buffer data position position [] .str

theorem Buffer.nextLine {data line : Bytes} {position offset : Nat} {lines : List Bytes}
    {part : PartialInput} (h : Buffer data position offset (line :: lines) part) :
    nextLine data position = some line := by
  cases h with
  | ahead htext hlines hpart =>
    rw [Klippy.nextLine, htext, linesOf_joinLines hlines, List.cons_append, List.head?_cons]

theorem Buffer.tail {data line : Bytes} {position offset : Nat} {lines : List Bytes}
    {part : PartialInput} (h : Buffer data position offset (line :: lines) part) :
    Buffer data (position + line.length + 1) offset lines part := by
  cases h with
  | ahead htext hlines hpart =>
    refine .ahead ?_ (fun l hl => hlines l (List.mem_cons_of_mem _ hl)) hpart
    have hdrop : data.drop (position + (line.length + 1)) =
        (data.drop position).drop (line ++ [newline]).length := by
      rw [List.drop_drop, List.length_append, List.length_singleton]
    have hfront : joinLines newline (line :: lines) =
        (line ++ [newline]) ++ joinLines newline lines := by
      rw [joinLines_cons, List.append_assoc]
      rfl
    rw [Nat.add_assoc, hdrop, htext, hfront, List.append_assoc, List.drop_left]

/-- The buffer after a block is read. -/
theorem Buffer.read {data b : Bytes} {position offset n : Nat}
    (h : Buffer data position offset [] (.bytes b)) :
    let block := (data.drop offset).take n
    let lines := (b ++ (block.splitOn newline).headD []) :: (block.splitOn newline).tail
    Buffer data position (offset + block.length) lines.dropLast (.bytes (lines.getLastD [])) := by
  intro block lines
  cases h with
  | ahead htext hlines hpart =>
    have hsplit : lines = (b ++ block).splitOn newline := by
      rw [splitOn_append hpart]
      obtain ⟨p, ps, hps⟩ := List.exists_cons_of_ne_nil (List.splitOn_ne_nil newline block)
      simp only [lines, hps]
      rfl
    rw [hsplit, splitOn_eq, List.dropLast_concat, List.getLastD_concat]
    refine .ahead ?_ (fun l hl => not_mem_of_mem_linesOf hl) (not_mem_tailOf _)
    rw [← List.append_assoc, joinLines_linesOf, htext, joinLines_nil, List.nil_append,
      List.append_assoc]
    congr 1
    have hlen : block.length = min n (data.drop offset).length := List.length_take
    rw [← List.drop_drop, hlen]
    conv_lhs => rw [← List.take_append_drop n (data.drop offset)]
    congr 1
    rw [List.drop_eq_drop_iff]
    omega

theorem Buffer.nextLine_of_read {data : Bytes} {position offset n : Nat} {part : PartialInput}
    (h : Buffer data position offset [] part) (hn : 0 < n)
    (hread : (data.drop offset).take n = []) : Klippy.nextLine data position = none := by
  have hend : data.drop offset = [] := by
    rcases List.take_eq_nil_iff.mp hread with h0 | h0
    · omega
    · exact h0
  cases h with
  | ahead htext hlines hpart =>
    rw [hend, List.append_nil, joinLines_nil, List.nil_append] at htext
    rw [Klippy.nextLine, htext, linesOf_eq_nil hpart]
    rfl
  | jumped =>
    rw [Klippy.nextLine, hend]
    rfl

/-! ## The states of a print -/

/-- The world is at the position and in the state of the abstract print. -/
structure At (abs : σ → A) (s : Printed A) (w : World σ) : Prop where
  restart : w.sd.powerLossRestart = false
  position : w.sd.filePosition = s.position
  state : abs w.host = s.state

/-- The handler is in its loop, with the file open at an offset. -/
structure Running (data : Bytes) (abs : σ → A) (s : Printed A) (offset : Nat) (l : Loop σ) :
    Prop where
  world : At abs s l.toWorld
  timer : l.sd.workTimer = true
  started : l.sd.printStats.started = true
  file : l.sd.currentFile = some ⟨data, offset⟩
  noError : l.errorMessage = none
  log : l.log = s.log

/-- The handler is in its loop, with its buffer in place. -/
structure Working (data : Bytes) (abs : σ → A) (s : Printed A) (offset : Nat) (l : Loop σ) : Prop
    extends Running data abs s offset l where
  buffer : Buffer data s.position offset l.lines l.partialInput

/-- The states of a print that stand for a state of the abstract one. -/
inductive Stands (data : Bytes) (abs : σ → A) (s : Printed A) : Print σ → Prop
  | idle {w : World σ} {log : List (Nat × String)} {offset : Nat} :
      At abs s w → w.sd.workTimer = false → w.sd.currentFile = some ⟨data, offset⟩ →
      log = s.log → Stands data abs s (.idle w log)
  | working {l : Loop σ} {offset : Nat} :
      Working data abs s offset l → Stands data abs s (.working l)
  | complete {w : World σ} {log : List (Nat × String)} {after : Option Raised × World σ} :
      w.sd.filePosition = s.position → w.sd.printStats.state = .complete →
      nextLine data s.position = none → log = s.log → Stands data abs s (.complete w log after)
  | crashed {w : World σ} {log : List (Nat × String)} :
      s.position < data.length → log = s.log → Stands data abs s (.crashed w log)

theorem Stands.log_eq {data : Bytes} {abs : σ → A} {s : Printed A} {p : Print σ}
    (h : Stands data abs s p) : p.log = s.log := by
  cases h with
  | idle _ _ _ hlog => exact hlog
  | working hl => exact hl.log
  | complete _ _ _ hlog => exact hlog
  | crashed _ hlog => exact hlog

section Steps

variable {h : Host σ} {data : Bytes} {C : Commands A} {abs : σ → A} {s : Printed A}
  {l : Loop σ} {offset : Nat}

theorem Keeps.trans {w w' w'' : World σ} (hk : Keeps abs w w') (hk' : Keeps abs w' w'') :
    Keeps abs w w'' := by
  obtain ⟨b, hsd⟩ := hk.sd
  obtain ⟨b', hsd'⟩ := hk'.sd
  refine ⟨⟨b', ?_⟩, hk'.state.trans hk.state⟩
  rw [hsd', hsd]

theorem Keeps.refl (w : World σ) : Keeps abs w w := ⟨⟨w.sd.mustPauseWork, rfl⟩, rfl⟩

/-- Other tasks do not disturb the handler, whatever it reads meanwhile. -/
theorem Running.keeps {w : World σ} {offset' : Nat} (lines : List Bytes) (part : PartialInput)
    (hasPreCheck : Bool) (hl : Running data abs s offset l)
    (hk : Keeps abs { l.toWorld with sd := l.sd.seek ⟨data, offset⟩ offset' } w) :
    Running data abs s offset'
      { l with
        toWorld := w, lines := lines, partialInput := part, hasPreCheck := hasPreCheck } := by
  obtain ⟨b, hsd⟩ := hk.sd
  refine ⟨⟨?_, ?_, hk.state.trans hl.world.state⟩, ?_, ?_, ?_, hl.noError, hl.log⟩
  · show w.sd.powerLossRestart = false
    rw [hsd]
    exact hl.world.restart
  · show w.sd.filePosition = s.position
    rw [hsd]
    exact hl.world.position
  · show w.sd.workTimer = true
    rw [hsd]
    exact hl.timer
  · show w.sd.printStats.started = true
    rw [hsd]
    exact hl.started
  · show w.sd.currentFile = some ⟨data, offset'⟩
    rw [hsd]
    rfl

theorem Running.seek_offset (hl : Running data abs s offset l) :
    l.sd.seek ⟨data, offset⟩ offset = l.sd := by
  have hfile := hl.file
  rw [VirtualSd.seek, ← hfile]

theorem Running.withWorld {w : World σ} (hl : Running data abs s offset l)
    (hk : Keeps abs l.toWorld w) : Running data abs s offset (l.withWorld w) := by
  apply hl.keeps l.lines l.partialInput l.hasPreCheck
  rw [hl.seek_offset]
  exact hk

theorem Working.withWorld {w : World σ} (hl : Working data abs s offset l)
    (hk : Keeps abs l.toWorld w) : Working data abs s offset (l.withWorld w) :=
  ⟨hl.toRunning.withWorld hk, hl.buffer⟩

theorem Running.endWork (hl : Running data abs s offset l) :
    ∃ w, Klippy.endWork h l = .idle w l.log ∧ Stands data abs s (.idle w l.log) := by
  refine ⟨⟨{ l.sd with workTimer := false, cmdFromSd := false
                       printStats := l.sd.printStats.notePause }, l.host⟩, ?_,
    .idle ⟨hl.world.restart, hl.world.position, hl.world.state⟩ rfl hl.file hl.log⟩
  simp only [Klippy.endWork, hl.noError, hl.file, Option.isSome_some, if_true]

/-- A resume starts a run with an empty buffer. -/
theorem Stands.resume (hleaves : h.Leaves abs) {w : World σ} {log : List (Nat × String)}
    (hidle : Stands data abs s (.idle w log)) :
    ∃ l offset, step h (.idle w log) = .working l ∧ Working data abs s offset l ∧
      l.lines = [] ∧ l.partialInput = .bytes [] ∧
      (h.Prompt → l.sd.mustPauseWork = false) := by
  cases hidle with
  | idle hw htimer hfile hlog =>
    rename_i offset
    have hidle := hleaves.idle w
    obtain ⟨b, hsd⟩ := hidle.sd
    -- `do_resume`, after whatever ran since
    have hresume : (h.idle w).sd.doResume =
        some { (h.idle w).sd with mustPauseWork := false, workTimer := true } := by
      rw [VirtualSd.doResume, hsd, if_neg (by rw [htimer]; exact Bool.false_ne_true)]
    obtain ⟨b', hsd'⟩ := (hleaves.reactorPause
      { h.idle w with sd := { (h.idle w).sd with mustPauseWork := false, workTimer := true } }).sd
    have hstate := (hleaves.reactorPause
      { h.idle w with
        sd := { (h.idle w).sd with mustPauseWork := false, workTimer := true } }).state
    have hprompt : h.Prompt → b' = false := by
      intro hp
      have hpause := hp.reactorPause
        { h.idle w with sd := { (h.idle w).sd with mustPauseWork := false, workTimer := true } }
      rw [hsd'] at hpause
      exact hpause
    generalize hw' : h.reactorPause
      { h.idle w with
        sd := { (h.idle w).sd with mustPauseWork := false, workTimer := true } } = w' at *
    rw [hsd] at hsd'
    have hfile' : w'.sd.currentFile = some ⟨data, offset⟩ := by rw [hsd']; exact hfile
    have hrestart : w'.sd.powerLossRestart = false := by rw [hsd']; exact hw.restart
    have hposition : w'.sd.filePosition = s.position := by rw [hsd']; exact hw.position
    refine ⟨.enter ⟨{ w'.sd with
      currentFile := some ⟨data, w'.sd.filePosition⟩
      printStats := w'.sd.printStats.noteStart }, w'.host⟩ log, s.position, ?_,
      ⟨⟨⟨hrestart, hposition, ?_⟩, ?_, rfl, ?_, rfl, hlog⟩, ?_⟩, rfl, rfl, ?_⟩
    · simp only [step, hfile, Option.isNone_some, Bool.false_eq_true, if_false, hresume, hw',
        startWork, hfile', VirtualSd.seek, hrestart]
    · exact hstate.trans (hidle.state.trans hw.state)
    · show w'.sd.workTimer = true
      rw [hsd']
    · rw [← hposition]
      rfl
    · exact .ahead rfl (fun l hl => by cases hl) List.not_mem_nil
    · intro hp
      show w'.sd.mustPauseWork = false
      rw [hsd']
      exact hprompt hp

/-! ## Reading -/

theorem Running.readData (hleaves : h.Leaves abs) (hl : Running data abs s offset l) :
    Klippy.readData h l.toWorld =
      (some ((data.drop offset).take 8192),
        h.readWait { l.toWorld with
          sd := l.sd.seek ⟨data, offset⟩ (offset + ((data.drop offset).take 8192).length) }) := by
  simp only [Klippy.readData, hl.file, hleaves.readFails, Bool.false_eq_true, if_false]

theorem endWork_closed (hfile : l.sd.currentFile = none) (herror : l.errorMessage = none) :
    ∃ w after, endWork h l = .complete w l.log after ∧ w.sd.filePosition = l.sd.filePosition ∧
      w.sd.printStats = l.sd.printStats.noteComplete := by
  simp only [endWork, herror, hfile, Option.isSome_none, Bool.false_eq_true, if_false]
  exact ⟨_, _, rfl, rfl, rfl⟩

theorem Working.nextLine_of_read (hl : Working data abs s offset l) (hlines : l.lines = [])
    (hread : (data.drop offset).take 8192 = []) : nextLine data s.position = none := by
  have hbuffer := hl.buffer
  rw [hlines] at hbuffer
  exact hbuffer.nextLine_of_read (by omega) hread

/-- At the end of the file the print is noted complete. -/
theorem Running.readEnd (hleaves : h.Leaves abs) (hl : Running data abs s offset l)
    (hend : nextLine data s.position = none) (hlines : l.lines = [])
    (hread : (data.drop offset).take 8192 = []) :
    ∃ l' w after, round h l = .done l' ∧ Klippy.endWork h l' = .complete w s.log after ∧
      Stands data abs s (.complete w s.log after) := by
  have hrun := hl.keeps [] l.partialInput l.hasPreCheck (hleaves.readWait
    { l.toWorld with
      sd := l.sd.seek ⟨data, offset⟩ (offset + ((data.drop offset).take 8192).length) })
  have hdata := hl.readData hleaves
  generalize hw : h.readWait
    { l.toWorld with
      sd := l.sd.seek ⟨data, offset⟩ (offset + ((data.drop offset).take 8192).length) } = w at *
  have hfile : w.sd.currentFile = _ := hrun.file
  have hstarted : w.sd.printStats.started = true := hrun.started
  obtain ⟨w', after, hwork, hposition, hstats⟩ := endWork_closed (h := h)
    (l := (l.withWorld w).withSd { w.sd with currentFile := none }) rfl hl.noError
  have hlog : ((l.withWorld w).withSd { w.sd with currentFile := none }).log = s.log := hl.log
  rw [hlog] at hwork
  refine ⟨_, w', after, ?_, hwork, .complete (hposition.trans hrun.world.position) ?_ hend rfl⟩
  · rw [round, hlines]
    simp only [readRound, hdata, hread, if_true, Loop.withWorld, hfile]
  · rw [hstats]
    show (w.sd.printStats.noteFinish .complete "").state = .complete
    rw [PrintStats.noteFinish, if_pos hstarted]

/-- A block is read into the buffer. -/
theorem Working.readBlock (hleaves : h.Leaves abs) {b : Bytes}
    (hl : Working data abs s offset l) (hlines : l.lines = [])
    (hpart : l.partialInput = .bytes b) (hread : (data.drop offset).take 8192 ≠ []) :
    ∃ l' offset' b', round h l = .next l' ∧ offset < offset' ∧ Working data abs s offset' l' ∧
      l'.partialInput = .bytes b' ∧
      (h.Prompt → l'.sd.mustPauseWork = l.sd.mustPauseWork) := by
  have hbuffer := hl.buffer
  rw [hlines, hpart] at hbuffer
  have hahead := hbuffer.read (n := 8192)
  have hdata := hl.toRunning.readData hleaves
  have hwait := hleaves.readWait
    { l.toWorld with
      sd := l.sd.seek ⟨data, offset⟩ (offset + ((data.drop offset).take 8192).length) }
  have hpause := hleaves.reactorPause (h.readWait
    { l.toWorld with
      sd := l.sd.seek ⟨data, offset⟩ (offset + ((data.drop offset).take 8192).length) })
  refine ⟨{ l with
    toWorld := h.reactorPause (h.readWait
      { l.toWorld with
        sd := l.sd.seek ⟨data, offset⟩ (offset + ((data.drop offset).take 8192).length) })
    lines := _, partialInput := .bytes _ }, _, _, ?_, ?_, ⟨hl.toRunning.keeps _ _ _
      (hwait.trans hpause), hahead⟩, rfl, ?_⟩
  · rw [round, hlines]
    simp only [readRound, hdata, if_neg hread, Loop.withWorld, hpart, PartialInput.add]
  · have := List.length_pos_of_ne_nil hread
    omega
  · intro hp
    exact (hp.reactorPause _).trans (hp.readWait _)

theorem Working.readJumped (hleaves : h.Leaves abs) (hl : Working data abs s offset l)
    (hlines : l.lines = []) (hpart : l.partialInput = .str)
    (hread : (data.drop offset).take 8192 ≠ []) :
    ∃ l', round h l = .raised l' ∧ l'.log = s.log ∧ s.position < data.length := by
  have hdata := hl.toRunning.readData hleaves
  have hbuffer := hl.buffer
  rw [hlines, hpart] at hbuffer
  cases hbuffer
  refine ⟨l.withWorld (h.readWait
    { l.toWorld with
      sd := l.sd.seek ⟨data, s.position⟩
        (s.position + ((data.drop s.position).take 8192).length) }), ?_, hl.log, ?_⟩
  · rw [round, hlines]
    simp only [readRound, hdata, if_neg hread, Loop.withWorld, hpart, PartialInput.add]
  · by_contra hle
    exact hread (by rw [List.drop_eq_nil_of_le (Nat.le_of_not_lt hle), List.take_nil])

/-! ## Dispatching a line -/

theorem round_wait {line : Bytes} {lines : List Bytes} (hlines : l.lines = line :: lines)
    (hbusy : h.mutexTest l.host = true) :
    round h l = .next (l.withWorld (h.reactorPause l.toWorld)) := by
  rw [round, hlines]
  exact if_pos hbusy

theorem preCheck_eq (hleaves : h.Leaves abs) (l : Loop σ) :
    ∃ stop w hasPreCheck,
      preCheck h l = (.ok stop, { l with toWorld := w, hasPreCheck := hasPreCheck }) ∧
        Keeps abs l.toWorld w ∧
        (h.Prompt → stop = false ∧ w.sd.mustPauseWork = l.sd.mustPauseWork) := by
  cases hcheck : l.hasPreCheck with
  | true =>
    refine ⟨false, l.toWorld, true, ?_, .refl _, fun _ => ⟨rfl, rfl⟩⟩
    rw [preCheck, hcheck, if_pos rfl, ← hcheck]
  | false =>
    obtain ⟨⟨stop, hstop⟩, hkeeps⟩ := hleaves.checkToPause l.toWorld
    refine ⟨stop, (h.checkToPause l.toWorld).2, true, ?_, hkeeps, ?_⟩
    · rw [preCheck, hcheck, if_neg Bool.false_ne_true]
      simp only [hstop]
    · intro hp
      obtain ⟨hfalse, hpause⟩ := hp.checkToPause l.toWorld
      rw [hstop, Except.ok.injEq] at hfalse
      exact ⟨hfalse, hpause⟩

/-- A line of the file is run as the abstract print runs it. -/
theorem Running.runLine (hruns : h.Runs data C abs) {line : Bytes} {text : String}
    (hl : Running data abs s offset l) (hline : s.line data = some (line, text))
    (hcmd : l.sd.cmdFromSd = true)
    (hnext : l.sd.nextFilePosition = s.position + line.length + 1) :
    ∃ w w', Klippy.runLine h l line =
        (none, { l with toWorld := w', log := (s.next C data).log }) ∧
      abs w'.host = (s.next C data).state ∧
      (∃ b, w'.sd =
        { l.sd with nextFilePosition := (s.next C data).position, mustPauseWork := b }) ∧
      Keeps abs l.toWorld w ∧ w.sd = l.sd ∧
      w'.sd.mustPauseWork = (h.runScript text w).2.sd.mustPauseWork := by
  obtain ⟨line', hfind, hdecode⟩ := Option.bind_eq_some_iff.mp hline
  obtain ⟨text', htext, heq⟩ := Option.map_eq_some_iff.mp hdecode
  rw [Prod.mk.injEq] at heq
  rw [heq.1] at hfind htext
  rw [heq.2] at htext
  have hstate : abs (h.recordGcodeBegin text s.position l.host) = s.state :=
    (hruns.recordGcodeBegin _ _ _).trans hl.world.state
  obtain ⟨hok, hsd, habs⟩ := hruns.runScript text
    ⟨l.sd, h.recordGcodeBegin text s.position l.host⟩ ⟨s.position, line, hfind, htext⟩ hcmd
  generalize hran : h.runScript text
    ⟨l.sd, h.recordGcodeBegin text s.position l.host⟩ = r at hok hsd habs
  simp only [hstate, hnext] at hsd habs
  rw [Printed.next_eq hline]
  refine ⟨⟨l.sd, h.recordGcodeBegin text s.position l.host⟩,
    ⟨r.2.sd, h.recordGcodeEnd r.2.host⟩, ?_, ?_, hsd,
    ⟨⟨l.sd.mustPauseWork, rfl⟩, hruns.recordGcodeBegin _ _ _⟩, rfl, ?_⟩
  · simp only [Klippy.runLine, htext, hran, hok, Loop.withWorld, hl.log, hl.world.position]
  · exact (hruns.recordGcodeEnd _).trans habs
  · rw [hran]

/-- A line in the buffer stops the run, or is run as the abstract print runs it; if it
changes the position, the buffer is dropped. -/
theorem Working.dispatch (hruns : h.Runs data C abs) {line : Bytes} {lines : List Bytes}
    (hl : Working data abs s offset l) (hlines : l.lines = line :: lines) :
    (∃ l', dispatchRound h l line lines = .done l' ∧ Running data abs s offset l' ∧
      (h.Prompt → s.line data = none)) ∨
    ∃ text l' w offset', s.line data = some (line, text) ∧
      dispatchRound h l line lines = .next l' ∧ Working data abs (s.next C data) offset' l' ∧
      Keeps abs { l.toWorld with
        sd := { l.sd with
          cmdFromSd := true, nextFilePosition := s.position + line.length + 1 } } w ∧
      (h.Prompt → w.sd.mustPauseWork = l.sd.mustPauseWork) ∧
      l'.sd.mustPauseWork = (h.runScript text w).2.sd.mustPauseWork ∧
      (((s.next C data).position = s.position + line.length + 1 ∧
          l'.partialInput = l.partialInput) ∨
        ((s.next C data).position ≠ s.position + line.length + 1 ∧ l'.lines = [] ∧
          l'.partialInput = .str)) := by
  have hbuffer := hl.buffer
  rw [hlines] at hbuffer
  have hposition := hl.world.position
  -- the handler as it comes to the filament check
  have hrun : Running data abs s offset { l with
      sd := { l.sd with
        cmdFromSd := true, nextFilePosition := l.sd.filePosition + line.length + 1 }
      lines := lines } :=
    ⟨⟨hl.world.restart, hposition, hl.world.state⟩, hl.timer, hl.started, hl.file, hl.noError,
      hl.log⟩
  obtain ⟨stop, w, hasPreCheck, hcheck, hkeeps, hprompt⟩ := preCheck_eq hruns.toLeaves { l with
      sd := { l.sd with
        cmdFromSd := true, nextFilePosition := l.sd.filePosition + line.length + 1 }
      lines := lines }
  have hrun' : Running data abs s offset
      { l with toWorld := w, lines := lines, hasPreCheck := hasPreCheck } := by
    apply hrun.keeps lines l.partialInput hasPreCheck
    rw [hrun.seek_offset]
    exact hkeeps
  obtain ⟨b, hsd⟩ := hkeeps.sd
  cases stop with
  | true =>
    refine .inl ⟨_, ?_, hrun', fun hp => absurd (hprompt hp).1 Bool.noConfusion⟩
    simp only [dispatchRound, hcheck]
  | false =>
    cases htext : decodeUtf8 line with
    | none =>
      refine .inl ⟨_, ?_, hrun', fun _ => ?_⟩
      · simp only [dispatchRound, hcheck, Klippy.runLine, htext, lineRaised]
      · rw [Printed.line, hbuffer.nextLine, Option.bind_some, htext, Option.map_none]
    | some text =>
      right
      have hline : s.line data = some (line, text) := Printed.line_eq hbuffer.nextLine htext
      obtain ⟨w', w'', hran, hstate, ⟨b', hsd'⟩, hkeeps', hsame, hpause⟩ :=
        hrun'.runLine hruns hline (by simp only [hsd]) (by simp only [hsd, hposition])
      simp only [hsd] at hsd'
      have hwork : Running data abs (s.next C data) offset
          { l with
            toWorld := ⟨{ w''.sd with cmdFromSd := false, filePosition := w''.sd.nextFilePosition },
              w''.host⟩
            lines := lines, hasPreCheck := hasPreCheck, log := (s.next C data).log } := by
        refine ⟨⟨?_, ?_, hstate⟩, ?_, ?_, ?_, hl.noError, rfl⟩
        · simp only [hsd', hl.world.restart]
        · simp only [hsd']
        · simp only [hsd', hl.timer]
        · simp only [hsd', hl.started]
        · simp only [hsd', hl.file]
      rw [← hposition]
      by_cases hjump : (s.next C data).position = l.sd.filePosition + line.length + 1
      · refine ⟨text, _, w', offset, hline, ?_, ⟨hwork, ?_⟩, hkeeps.trans hkeeps', ?_, hpause,
          .inl ⟨hjump, rfl⟩⟩
        · simp only [dispatchRound, hcheck, hran, lineDone, Loop.withSd, hsd', hjump, ne_eq,
            not_true_eq_false, if_false]
        · rw [hjump, hposition]
          exact hbuffer.tail
        · intro hp
          rw [hsame]
          exact (hprompt hp).2
      · refine ⟨text, _, w', (s.next C data).position, hline, ?_,
          ⟨hwork.keeps [] .str hasPreCheck (.refl _), .jumped⟩, hkeeps.trans hkeeps', ?_, hpause,
          .inr ⟨hjump, rfl, rfl⟩⟩
        · simp only [dispatchRound, hcheck, hran]
          simp only [lineDone, Loop.withSd, hsd', hjump, ne_eq, not_false_eq_true, if_true, hl.file]
        · intro hp
          rw [hsame]
          exact (hprompt hp).2

/-! ## The steps of a print -/

theorem step_working (hpause : l.sd.mustPauseWork = false) :
    step h (.working l) = (round h l).print h := by
  rw [step, if_neg (by rw [hpause]; exact Bool.false_ne_true)]

theorem Working.pause (hl : Working data abs s offset l) (hpause : l.sd.mustPauseWork = true) :
    ∃ w, step h (.working l) = .idle w s.log ∧ Stands data abs s (.idle w s.log) := by
  obtain ⟨w, hend, hstands⟩ := hl.toRunning.endWork (h := h)
  rw [hl.log] at hend hstands
  exact ⟨w, by rw [step, if_pos hpause, hend], hstands⟩

theorem round_line {line : Bytes} {lines : List Bytes} (hlines : l.lines = line :: lines)
    (hfree : h.mutexTest l.host = false) : round h l = dispatchRound h l line lines := by
  rw [round, hlines]
  exact if_neg (by rw [hfree]; exact Bool.false_ne_true)

/-- The print is not lost: the handler has not changed position with a part of a line to
put together. -/
def GoesOn (data : Bytes) : Print σ → Prop
  | .working l =>
      l.partialInput = .str → l.sd.mustPauseWork = true ∨ data.length ≤ l.sd.filePosition
  | .crashed .. => False
  | _ => True

/-- After the next line the print goes on: that line stays in place, moves to the end of
the file, or has a pause requested. -/
def Continues (h : Host σ) (data : Bytes) (C : Commands A) (abs : σ → A) (s : Printed A) : Prop :=
  ∀ line text, s.line data = some (line, text) →
    (s.next C data).position = s.position + line.length + 1 ∨
      data.length ≤ (s.next C data).position ∨
      ∀ w : World σ, abs w.host = s.state → w.sd.workTimer = true → w.sd.cmdFromSd = true →
        (h.runScript text w).2.sd.mustPauseWork = true

theorem Continues.goesOn {line : Bytes} {text : String} {l' : Loop σ} {w : World σ}
    (hcont : Continues h data C abs s) (hline : s.line data = some (line, text))
    (hl : Working data abs (s.next C data) offset l') (hstate : abs w.host = s.state)
    (htimer : w.sd.workTimer = true) (hcmd : w.sd.cmdFromSd = true)
    (hpause : l'.sd.mustPauseWork = (h.runScript text w).2.sd.mustPauseWork)
    (hjump : (s.next C data).position ≠ s.position + line.length + 1) :
    l'.sd.mustPauseWork = true ∨ data.length ≤ l'.sd.filePosition := by
  rcases hcont line text hline with hstay | hend | hpaused
  · exact absurd hstay hjump
  · right
    rw [hl.world.position]
    exact hend
  · left
    rw [hpause]
    exact hpaused w hstate htimer hcmd

/-- Every step keeps the state of the abstract print, or takes it one line on; and the
print goes on, unless that line does not let it. -/
theorem Stands.step (hruns : h.Runs data C abs) {p : Print σ} (hp : Stands data abs s p) :
    (Stands data abs s (step h p) ∧ (GoesOn data p → GoesOn data (step h p))) ∨
      (Stands data abs (s.next C data) (step h p) ∧
        (Continues h data C abs s → GoesOn data (step h p))) := by
  cases hp with
  | idle hw htimer hfile hlog =>
    obtain ⟨l, offset, hstep, hl, -, hpart, -⟩ := (Stands.idle hw htimer hfile hlog).resume hruns.toLeaves
    rw [hstep]
    refine .inl ⟨.working hl, fun _ hstr => ?_⟩
    rw [hpart] at hstr
    cases hstr
  | complete hposition hstate hend hlog =>
    exact .inl ⟨.complete hposition hstate hend hlog, fun _ => trivial⟩
  | crashed hposition hlog => exact .inl ⟨.crashed hposition hlog, False.elim⟩
  | working hl =>
    rename_i l offset
    cases hpause : l.sd.mustPauseWork with
    | true =>
      obtain ⟨w, hstep, hstands⟩ := hl.pause (h := h) hpause
      rw [hstep]
      exact .inl ⟨hstands, fun _ => trivial⟩
    | false =>
      rw [step_working hpause]
      cases hlines : l.lines with
      | nil =>
        left
        by_cases hread : (data.drop offset).take 8192 = []
        · obtain ⟨l', w, after, hround, hend, hstands⟩ :=
            hl.toRunning.readEnd hruns.toLeaves (hl.nextLine_of_read hlines hread) hlines hread
          rw [hround, Flow.print, hend]
          exact ⟨hstands, fun _ => trivial⟩
        · cases hpart : l.partialInput with
          | bytes b =>
            obtain ⟨l', offset', b', hround, -, hl', hpart', -⟩ :=
              hl.readBlock hruns.toLeaves hlines hpart hread
            rw [hround]
            refine ⟨.working hl', fun _ hstr => ?_⟩
            rw [hpart'] at hstr
            cases hstr
          | str =>
            obtain ⟨l', hround, hlog, hposition⟩ := hl.readJumped hruns.toLeaves hlines hpart hread
            rw [hround]
            refine ⟨.crashed hposition hlog, fun hgo => ?_⟩
            rcases hgo hpart with hgo | hgo
            · rw [hpause] at hgo
              cases hgo
            · rw [hl.world.position] at hgo
              omega
      | cons line lines =>
        have hbytes : l.partialInput ≠ .str := by
          intro hstr
          have hbuffer := hl.buffer
          rw [hlines, hstr] at hbuffer
          cases hbuffer
        cases hfree : h.mutexTest l.host with
        | true =>
          rw [round_wait hlines hfree]
          exact .inl ⟨.working (hl.withWorld (hruns.reactorPause _)),
            fun _ hstr => absurd hstr hbytes⟩
        | false =>
          rw [round_line hlines hfree]
          obtain ⟨l', hdone, hl', -⟩ |
            ⟨text, l', w, offset', hline, hnext, hl', hkeeps, -, hset, hcase⟩ :=
            hl.dispatch hruns hlines
          · rw [hdone]
            obtain ⟨w, hend, hstands⟩ := hl'.endWork (h := h)
            rw [Flow.print, hend]
            exact .inl ⟨hstands, fun _ => trivial⟩
          · rw [hnext]
            refine .inr ⟨.working hl', fun hcont hstr => ?_⟩
            rcases hcase with ⟨-, hsame⟩ | ⟨hjump, -⟩
            · exact absurd (hsame.symm.trans hstr) hbytes
            · obtain ⟨c, hsd⟩ := hkeeps.sd
              refine hcont.goesOn hline hl' (hkeeps.state.trans hl.world.state) ?_ ?_ hset hjump
              · rw [hsd]
                exact hl.timer
              · rw [hsd]

theorem Stands.position_eq {p : Print σ} (hp : Stands data abs s p) (hgo : GoesOn data p) :
    p.world.sd.filePosition = s.position := by
  cases hp with
  | idle hw _ _ _ => exact hw.position
  | working hl => exact hl.world.position
  | complete hposition _ _ _ => exact hposition
  | crashed _ _ => exact hgo.elim

theorem Stands.nextLine_of_complete {p : Print σ} (hp : Stands data abs s p) (hc : p.Complete) :
    nextLine data s.position = none := by
  cases hp with
  | complete _ _ hend _ => exact hend
  | idle => exact hc.elim
  | working => exact hc.elim
  | crashed => exact hc.elim

theorem stands_loaded (data : Bytes) (abs : σ → A) (host : σ) :
    Stands data abs ⟨abs host, 0, []⟩ (loaded data host) :=
  .idle ⟨rfl, rfl, rfl⟩ rfl rfl rfl

/-- Every state of a print stands for the abstract print after some number of lines, and
goes on if all those lines let it. -/
theorem exists_stands (hruns : h.Runs data C abs) (host : σ) (k : Nat) :
    ∃ n, Stands data abs (printed C data (abs host) n)
        ((Klippy.step h)^[k] (loaded data host)) ∧
      ((∀ m, Continues h data C abs (printed C data (abs host) m)) →
        GoesOn data ((Klippy.step h)^[k] (loaded data host))) := by
  induction k with
  | zero => exact ⟨0, stands_loaded data abs host, fun _ => trivial⟩
  | succ k ih =>
    obtain ⟨n, hn, hgo⟩ := ih
    rw [Function.iterate_succ_apply']
    rcases hn.step hruns with ⟨hsame, hgo'⟩ | ⟨hnext, hgo'⟩
    · exact ⟨n, hsame, fun hcont => hgo' (hgo hcont)⟩
    · refine ⟨n + 1, ?_, fun hcont => hgo' (hcont n)⟩
      rw [printed_succ]
      exact hnext

/-! ## How a print goes on -/

/-- Steps lead from one state of a print to another. -/
def Leads (h : Host σ) (p q : Print σ) : Prop := ∃ k, (Klippy.step h)^[k] p = q

theorem Leads.refl (p : Print σ) : Leads h p p := ⟨0, rfl⟩

theorem Leads.trans {p q r : Print σ} (hpq : Leads h p q) (hqr : Leads h q r) : Leads h p r := by
  obtain ⟨k, rfl⟩ := hpq
  obtain ⟨m, rfl⟩ := hqr
  exact ⟨m + k, Function.iterate_add_apply _ _ _ _⟩

theorem Leads.single {p q : Print σ} (hstep : Klippy.step h p = q) : Leads h p q := ⟨1, hstep⟩

theorem leads_free (hleaves : h.Leaves abs) (hprompt : h.Prompt) {line : Bytes}
    {lines : List Bytes} (hlines : l.lines = line :: lines) (hpause : l.sd.mustPauseWork = false) :
    ∃ w, Leads h (.working l) (.working (l.withWorld w)) ∧ Keeps abs l.toWorld w ∧
      w.sd.mustPauseWork = false ∧ h.mutexTest w.host = false := by
  obtain ⟨n, hn⟩ := hprompt.mutexTest l.toWorld
  induction n generalizing l with
  | zero => exact ⟨l.toWorld, .refl _, .refl _, hpause, hn⟩
  | succ n ih =>
    cases hbusy : h.mutexTest l.host with
    | false => exact ⟨l.toWorld, .refl _, .refl _, hpause, hbusy⟩
    | true =>
      have hpause' : (l.withWorld (h.reactorPause l.toWorld)).sd.mustPauseWork = false :=
        (hprompt.reactorPause l.toWorld).trans hpause
      have hlead : Leads h (.working l) (.working (l.withWorld (h.reactorPause l.toWorld))) :=
        .single (by rw [step_working hpause, round_wait hlines hbusy, Flow.print])
      obtain ⟨w, hlead', hkeeps, hrest⟩ :=
        ih (l := l.withWorld (h.reactorPause l.toWorld)) hlines hpause' hn
      exact ⟨w, hlead.trans hlead', (hleaves.reactorPause l.toWorld).trans hkeeps, hrest⟩

/-- The handler reads on until it has a line, or comes to the end of the file. -/
theorem Working.leads_line (hleaves : h.Leaves abs) (hprompt : h.Prompt) {b : Bytes}
    (hl : Working data abs s offset l) (hpart : l.partialInput = .bytes b)
    (hpause : l.sd.mustPauseWork = false) :
    (∃ l' offset' line lines b', Leads h (.working l) (.working l') ∧
        Working data abs s offset' l' ∧ l'.lines = line :: lines ∧
        l'.sd.mustPauseWork = false ∧ l'.partialInput = .bytes b') ∨
      ∃ w after, Leads h (.working l) (.complete w s.log after) ∧
        Stands data abs s (.complete w s.log after) := by
  induction hn : data.length - offset using Nat.strongRecOn generalizing l offset b with
  | _ n ih =>
    cases hlines : l.lines with
    | cons line lines => exact .inl ⟨l, offset, line, lines, b, .refl _, hl, hlines, hpause, hpart⟩
    | nil =>
      by_cases hread : (data.drop offset).take 8192 = []
      · obtain ⟨l', w, after, hround, hend, hstands⟩ :=
          hl.toRunning.readEnd hleaves (hl.nextLine_of_read hlines hread) hlines hread
        refine .inr ⟨w, after, .single ?_, hstands⟩
        rw [step_working hpause, hround]
        exact hend
      · have hlt : offset < data.length := by
          by_contra hle
          exact hread (by rw [List.drop_eq_nil_of_le (Nat.le_of_not_lt hle), List.take_nil])
        obtain ⟨l', offset', b', hround, hoffset, hl', hpart', hpause'⟩ :=
          hl.readBlock hleaves hlines hpart hread
        have hlead : Leads h (.working l) (.working l') :=
          .single (by rw [step_working hpause, hround, Flow.print])
        rcases ih (data.length - offset') (by omega) hl' hpart' ((hpause' hprompt).trans hpause) rfl
          with ⟨l'', offset'', line, lines, b'', hlead', hrest⟩ | ⟨w, after, hlead', hrest⟩
        · exact .inl ⟨l'', offset'', line, lines, b'', hlead.trans hlead', hrest⟩
        · exact .inr ⟨w, after, hlead.trans hlead', hrest⟩

/-- A print that goes on comes to a run without a pause request and with its buffer in
place, or is complete. -/
theorem Stands.leads_run (hleaves : h.Leaves abs) (hprompt : h.Prompt) {p : Print σ}
    (hp : Stands data abs s p) (hgo : GoesOn data p) :
    (∃ l offset b, Leads h p (.working l) ∧ Working data abs s offset l ∧
        l.partialInput = .bytes b ∧ l.sd.mustPauseWork = false) ∨
      ∃ w after, Leads h p (.complete w s.log after) ∧
        Stands data abs s (.complete w s.log after) := by
  have hidle : ∀ {w : World σ} {log : List (Nat × String)}, Stands data abs s (.idle w log) →
      ∃ l offset b, Leads h (.idle w log) (.working l) ∧ Working data abs s offset l ∧
        l.partialInput = .bytes b ∧ l.sd.mustPauseWork = false := by
    intro w log hw
    obtain ⟨l, offset, hstep, hl, -, hpart, hpause⟩ := hw.resume hleaves
    exact ⟨l, offset, [], .single hstep, hl, hpart, hpause hprompt⟩
  cases hp with
  | idle hw htimer hfile hlog => exact .inl (hidle (.idle hw htimer hfile hlog))
  | complete hposition hstate hend hlog =>
    subst hlog
    exact .inr ⟨_, _, .refl _, .complete hposition hstate hend rfl⟩
  | crashed hposition hlog => exact hgo.elim
  | working hl =>
    rename_i l offset
    cases hpause : l.sd.mustPauseWork with
    | true =>
      left
      obtain ⟨w, hstep, hstands⟩ := hl.pause (h := h) hpause
      obtain ⟨l', offset', b, hlead, hrest⟩ := hidle hstands
      exact ⟨l', offset', b, .trans (.single hstep) hlead, hrest⟩
    | false =>
      cases hpart : l.partialInput with
      | bytes b => exact .inl ⟨l, offset, b, .refl _, hl, hpart, hpause⟩
      | str =>
        right
        -- the position is at the end of the file, where there is nothing to put together
        have hend : data.length ≤ l.sd.filePosition := by
          rcases hgo hpart with hgo | hgo
          · rw [hpause] at hgo
            cases hgo
          · exact hgo
        have hbuffer := hl.buffer
        rw [hl.world.position] at hend
        rw [hpart] at hbuffer
        obtain ⟨hlines, hoffset⟩ : l.lines = [] ∧ offset = s.position := by
          generalize l.lines = lines at hbuffer
          cases hbuffer
          exact ⟨rfl, rfl⟩
        obtain ⟨l', w, after, hround, hcomplete, hstands⟩ := hl.toRunning.readEnd hleaves
          (nextLine_eq_none_of_le hend) hlines
          (by rw [hoffset, List.drop_eq_nil_of_le hend, List.take_nil])
        refine ⟨w, after, .single ?_, hstands⟩
        rw [step_working hpause, hround]
        exact hcomplete

theorem Stands.leads_complete (hleaves : h.Leaves abs) (hprompt : h.Prompt) {p : Print σ}
    (hp : Stands data abs s p) (hgo : GoesOn data p)
    (hend : nextLine data s.position = none) :
    ∃ w after, Leads h p (.complete w s.log after) ∧
      Stands data abs s (.complete w s.log after) := by
  rcases hp.leads_run hleaves hprompt hgo with ⟨l, offset, b, hlead, hl, hpart, hpause⟩ | hdone
  · rcases hl.leads_line hleaves hprompt hpart hpause with
      ⟨l', offset', line, lines, b', -, hl', hlines, -⟩ | ⟨w, after, hlead', hstands⟩
    · have hbuffer := hl'.buffer
      rw [hlines] at hbuffer
      rw [hbuffer.nextLine] at hend
      cases hend
    · exact ⟨w, after, hlead.trans hlead', hstands⟩
  · exact hdone

/-- Where there is a line, the print comes to it and runs it, in some world in which that
line is the current one. -/
theorem Stands.leads_next (hruns : h.Runs data C abs) (hprompt : h.Prompt) {p : Print σ}
    {line : Bytes} {text : String} (hp : Stands data abs s p) (hgo : GoesOn data p)
    (hline : s.line data = some (line, text)) :
    ∃ l' w offset', Leads h p (.working l') ∧ Working data abs (s.next C data) offset' l' ∧
      (abs w.host = s.state ∧ w.sd.workTimer = true ∧ w.sd.cmdFromSd = true ∧
        w.sd.mustPauseWork = false) ∧
      l'.sd.mustPauseWork = (h.runScript text w).2.sd.mustPauseWork ∧
      (((s.next C data).position = s.position + line.length + 1 ∧
          ∃ b, l'.partialInput = .bytes b) ∨
        ((s.next C data).position ≠ s.position + line.length + 1 ∧ l'.lines = [] ∧
          l'.partialInput = .str)) := by
  obtain ⟨line', hfind, hdecode⟩ := Option.bind_eq_some_iff.mp hline
  rcases hp.leads_run hruns.toLeaves hprompt hgo with
    ⟨l, offset, b, hlead, hl, hpart, hpause⟩ | ⟨w, after, -, hstands⟩
  · rcases hl.leads_line hruns.toLeaves hprompt hpart hpause with
      ⟨l', offset', line₁, lines, b', hlead', hl', hlines, hpause', hpart'⟩ |
      ⟨w, after, -, hstands⟩
    · obtain ⟨w', hlead'', hkeeps', hpause'', hfree⟩ :=
        leads_free hruns.toLeaves hprompt hlines hpause'
      have hl'' := hl'.withWorld hkeeps'
      have hlines'' : (l'.withWorld w').lines = line₁ :: lines := hlines
      generalize hl₁ : l'.withWorld w' = l'' at hlead'' hl'' hlines''
      have hworld : l''.toWorld = w' := by rw [← hl₁]; rfl
      rw [← hworld] at hpause'' hfree
      have hpart'' : ∃ b, l''.partialInput = .bytes b := by
        have hbuffer := hl''.buffer
        rw [hlines''] at hbuffer
        generalize hpart : l''.partialInput = part at hbuffer
        cases hbuffer with
        | ahead => exact ⟨_, rfl⟩
      have hstep := step_working (h := h) hpause''
      rw [round_line hlines'' hfree] at hstep
      obtain ⟨l₂, -, -, hnone⟩ | ⟨text', l₂, w, offset₂, hline', hnext, hl₂, hkeeps, hquiet, hset,
        hcase⟩ := hl''.dispatch hruns hlines''
      · rw [hnone hprompt] at hline
        cases hline
      · rw [hline, Option.some.injEq, Prod.mk.injEq] at hline'
        obtain ⟨rfl, rfl⟩ := hline'
        rw [hnext, Flow.print] at hstep
        obtain ⟨c, hsd⟩ := hkeeps.sd
        refine ⟨l₂, w, offset₂, (hlead.trans hlead').trans (hlead''.trans (.single hstep)), hl₂,
          ⟨hkeeps.state.trans hl''.world.state, ?_, ?_, (hquiet hprompt).trans hpause''⟩, hset, ?_⟩
        · rw [hsd]
          exact hl''.timer
        · rw [hsd]
        · rcases hcase with ⟨hstay, hsame⟩ | hjump
          · refine .inl ⟨hstay, ?_⟩
            rw [hsame]
            exact hpart''
          · exact .inr hjump
    · cases hstands with
      | complete _ _ hend _ =>
        rw [hend] at hfind
        cases hfind
  · cases hstands with
    | complete _ _ hend _ =>
      rw [hend] at hfind
      cases hfind

/-- While every line continues, the print comes to every state of the abstract one. -/
theorem leads_printed (hruns : h.Runs data C abs) (hprompt : h.Prompt) (host : σ) {n : Nat}
    (hcont : ∀ m < n, Continues h data C abs (printed C data (abs host) m)) :
    ∃ p, Leads h (loaded data host) p ∧ Stands data abs (printed C data (abs host) n) p ∧
      GoesOn data p := by
  induction n with
  | zero => exact ⟨_, .refl _, stands_loaded data abs host, trivial⟩
  | succ n ih =>
    obtain ⟨p, hlead, hp, hgo⟩ := ih fun m hm => hcont m (Nat.lt_succ_of_lt hm)
    rw [printed_succ]
    cases hline : (printed C data (abs host) n).line data with
    | none =>
      rw [Printed.next_of_none hline]
      exact ⟨p, hlead, hp, hgo⟩
    | some found =>
      obtain ⟨line, text⟩ := found
      obtain ⟨l', w, offset', hlead', hl', ⟨hstate, htimer, hcmd, -⟩, hpause, hcase⟩ :=
        hp.leads_next hruns hprompt hgo hline
      refine ⟨.working l', hlead.trans hlead', .working hl', fun hpart => ?_⟩
      rcases hcase with ⟨-, b, hbytes⟩ | ⟨hjump, -⟩
      · rw [hbytes] at hpart
        cases hpart
      · exact (hcont n (Nat.lt_succ_self n)).goesOn hline hl' hstate htimer hcmd hpause hjump

end Steps

/-! ## The lines dispatched -/

section Log

variable (h : Host σ)

/-- The lines dispatched when a pass of the loop ends. -/
def Flow.log : Flow σ → List (Nat × String)
  | .next l => l.log
  | .done l => l.log
  | .returned l => l.log
  | .raised l => l.log

theorem endWork_log (l : Loop σ) : (endWork h l).log = l.log := by
  unfold endWork
  split
  · rfl
  · dsimp only
    split <;> rfl

theorem Flow.print_log (f : Flow σ) : (f.print h).log = f.log := by
  cases f with
  | next l => rfl
  | done l => exact endWork_log h l
  | returned l => rfl
  | raised l => rfl

theorem startWork_log (w : World σ) (log : List (Nat × String)) :
    (startWork h w log).log = log := by
  unfold startWork
  split
  · rfl
  · dsimp only
    split
    · unfold restartWork
      split
      · rfl
      · split <;> rfl
    · rfl

theorem readRound_log (l : Loop σ) : (readRound h l).log = l.log := by
  unfold readRound
  split
  · rfl
  · dsimp only
    split
    · split <;> rfl
    · split <;> rfl

theorem excludeObjectOver_log (l : Loop σ) : (excludeObjectOver h l).log = l.log := by
  simp only [excludeObjectOver]
  generalize runCaught h (h.excludeObjectGcode l.host) _ = w
  cases w.sd.currentFile with
  | none => rfl
  | some f => rfl

theorem lineRaised_log (l : Loop σ) (e : Raised) : (lineRaised h l e).log = l.log := by
  cases e with
  | exception message => rfl
  | error message =>
    rw [lineRaised]
    split
    · exact excludeObjectOver_log h l
    · rfl

theorem lineDone_log (l : Loop σ) (next : Nat) : (lineDone l next).log = l.log := by
  unfold lineDone
  dsimp only
  split
  · split <;> rfl
  · rfl

theorem preCheck_log {l l' : Loop σ} {stop : Except Raised Bool}
    (hcheck : preCheck h l = (stop, l')) : l'.log = l.log := by
  have hlog : (preCheck h l).2.log = l.log := by
    unfold preCheck
    split <;> rfl
  rwa [hcheck] at hlog

theorem runLine_log (l : Loop σ) (line : Bytes) :
    (runLine h l line).2.log =
      l.log ++ ((decodeUtf8 line).map fun text => (l.sd.filePosition, text)).toList := by
  unfold runLine
  split
  · rename_i htext
    rw [htext, Option.map_none, Option.toList_none, List.append_nil]
  · rename_i text htext
    rw [htext, Option.map_some, Option.toList_some]
    dsimp only
    split <;> rfl

theorem dispatchRound_log {l l' : Loop σ} {line : Bytes} {lines : List Bytes}
    (hcheck : preCheck h { l with
        sd := { l.sd with
          cmdFromSd := true, nextFilePosition := l.sd.filePosition + line.length + 1 }
        lines := lines } = (.ok false, l')) :
    (dispatchRound h l line lines).log = (runLine h l' line).2.log := by
  simp only [dispatchRound, hcheck]
  rcases hran : runLine h l' line with ⟨e | e, l''⟩
  · exact lineDone_log _ _
  · exact lineRaised_log h _ _

/-- A step takes nothing back. -/
theorem log_grows_step (p : Print σ) : p.log <+: (step h p).log := by
  cases p with
  | complete w log after => exact List.prefix_refl log
  | crashed w log => exact List.prefix_refl log
  | idle w log =>
    rw [step]
    split
    · exact List.prefix_refl log
    · dsimp only
      split
      · exact List.prefix_refl log
      · rw [startWork_log]
        exact List.prefix_refl log
  | working l =>
    rw [step]
    split
    · rw [endWork_log]
      exact List.prefix_refl l.log
    · rw [Flow.print_log]
      unfold round
      split
      · rw [readRound_log]
        exact List.prefix_refl l.log
      · split
        · exact List.prefix_refl l.log
        · rename_i line lines _ _
          rcases hcheck : preCheck h { l with
              sd := { l.sd with
                cmdFromSd := true, nextFilePosition := l.sd.filePosition + line.length + 1 }
              lines := lines } with ⟨e | stop, l'⟩
          · have hlog := preCheck_log h hcheck
            dsimp only at hlog
            simp only [dispatchRound, hcheck, lineRaised_log, hlog]
            exact List.prefix_refl l.log
          · have hlog := preCheck_log h hcheck
            dsimp only at hlog
            cases stop with
            | true =>
              simp only [dispatchRound, hcheck, Flow.log, hlog]
              exact List.prefix_refl l.log
            | false =>
              rw [dispatchRound_log h hcheck, runLine_log, hlog]
              exact List.prefix_append _ _

theorem log_grows {k m : Nat} (hle : k ≤ m) (p : Print σ) :
    ((step h)^[k] p).log <+: ((step h)^[m] p).log := by
  induction hle with
  | refl => exact List.prefix_refl _
  | step _ ih =>
    rw [Function.iterate_succ_apply']
    exact ih.trans (log_grows_step h _)

theorem iterate_step_crashed (k : Nat) (w : World σ) (log : List (Nat × String)) :
    (step h)^[k] (.crashed w log) = .crashed w log :=
  Function.iterate_fixed rfl k

theorem iterate_step_of_complete (k : Nat) {p : Print σ} (hp : p.Complete) :
    (step h)^[k] p = p := by
  cases p with
  | complete w log after => exact Function.iterate_fixed rfl k
  | idle => exact hp.elim
  | working => exact hp.elim
  | crashed => exact hp.elim

end Log

/-! ## A program that does nothing but run lines -/

/-- The program that runs the lines of a file as `C` does, and has a pause requested
during those that `pauses` names. -/
def Host.ofCommands (C : Commands A) (pauses : A → String → Bool) : Host A where
  mutexTest _ := false
  reactorPause w := w
  idle w := w
  readWait w := w
  readFails _ := false
  runScript text w :=
    let r := C w.host text w.sd.getFilePosition
    let sd := w.sd.setFilePosition r.2
    (none, ⟨if pauses w.host text then sd.doPause else sd, r.1⟩)
  runScriptFromCommand _ w := (none, w)
  checkToPause w := (.ok false, w)
  recordGcodeBegin _ _ s := s
  recordGcodeEnd s := s
  onErrorGcode _ := none
  excludeObjectGcode _ := none
  hasExcludedObjects _ := false
  clearInitialExtrusionMoves s := s

theorem VirtualSd.doPause_eq (sd : VirtualSd) :
    sd.doPause = { sd with mustPauseWork := sd.workTimer || sd.mustPauseWork } := by
  rcases sd with ⟨_, _, _, _, _, _, _, _ | _, _⟩ <;> rfl

theorem Host.runs_ofCommands (C : Commands A) (pauses : A → String → Bool) (data : Bytes) :
    (Host.ofCommands C pauses).Runs data C id where
  reactorPause w := .refl w
  idle w := .refl w
  readWait w := .refl w
  readFails _ := rfl
  checkToPause w := ⟨⟨false, rfl⟩, .refl w⟩
  recordGcodeBegin _ _ _ := rfl
  recordGcodeEnd _ := rfl
  runScript text w _ _ := by
    refine ⟨rfl, ?_, rfl⟩
    simp only [Host.ofCommands, VirtualSd.doPause_eq]
    split
    · exact ⟨_, rfl⟩
    · exact ⟨w.sd.mustPauseWork, rfl⟩

theorem Host.prompt_ofCommands (C : Commands A) (pauses : A → String → Bool) :
    (Host.ofCommands C pauses).Prompt where
  reactorPause _ := rfl
  readWait _ := rfl
  checkToPause _ := ⟨rfl, rfl⟩
  mutexTest _ := ⟨0, rfl⟩

end FlsunT1.Klippy
