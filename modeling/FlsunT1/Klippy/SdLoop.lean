/-
  Klippy/SdLoop.lean --- changes of the file position while a file is printed
  (klippy/extras/sdcard_loop.py).

  After a change of position the handler puts the next block it reads together with a
  text in place of bytes, which raises an exception.  So a print follows a change of
  position into the file only if the run ends right there, with a pause.
-/
import Mathlib.Data.Nat.Find
import FlsunT1.Klippy.SdPause

set_option autoImplicit false

namespace FlsunT1.Klippy

open Library

variable {σ A : Type*}

/-! ## Loops in a file -/

/-- `loop_stack`, with the innermost loop first, where the code keeps it last. -/
abbrev LoopStack := List (Nat × Nat)

/-- `loop_begin`; there is no result outside of a file. -/
def loopBegin (sd : VirtualSd) (loopStack : LoopStack) (count : Nat) : Option LoopStack :=
  if sd.cmdFromSd then some ((count, sd.getFilePosition) :: loopStack) else none

/-- `loop_end`; there is no result outside of a file. -/
def loopEnd (sd : VirtualSd) (loopStack : LoopStack) : Option (VirtualSd × LoopStack) :=
  if sd.cmdFromSd then
    match loopStack with
    | [] => some (sd, [])
    | (count, position) :: loopStack =>
        if count = 0 then some (sd.setFilePosition position, (0, position) :: loopStack)
        else if count = 1 then some (sd, loopStack)
        else some (sd.setFilePosition position, (count - 1, position) :: loopStack)
  else none

/-- What a line is for the loops. -/
inductive LoopCommand
  | loopBegin (count : Nat)
  | loopEnd
  | other
  deriving DecidableEq, Repr

/-- A line is run. -/
def runLoopCommand (sd : VirtualSd) (loopStack : LoopStack) :
    LoopCommand → Option (VirtualSd × LoopStack)
  | .loopBegin count => (loopBegin sd loopStack count).map fun loopStack => (sd, loopStack)
  | .loopEnd => loopEnd sd loopStack
  | .other => some (sd, loopStack)

/-- The lines of a file only work on the loops, as the g-code parser reads them. -/
def IsLoops (C : Commands A) (stack : A → LoopStack) (parse : String → LoopCommand) : Prop :=
  ∀ a text (sd : VirtualSd), sd.cmdFromSd = true →
    runLoopCommand sd (stack a) (parse text) =
      some (sd.setFilePosition (C a text sd.nextFilePosition).2,
        stack (C a text sd.nextFilePosition).1)

/-- A file made of lines and of nested loops. -/
inductive Block
  | nil
  | line (text : List Char) (rest : Block)
  | loop (first : List Char) (count : Nat) (body : Block) (last : List Char) (rest : Block)

/-- What the loop commands of a file do. -/
def loopCommands (parse : String → LoopCommand) : Commands LoopStack :=
  fun loopStack text next =>
    let sd := { VirtualSd.init with cmdFromSd := true, nextFilePosition := next }
    match runLoopCommand sd loopStack (parse text) with
    | none => (loopStack, next)
    | some (sd, loopStack) => (loopStack, sd.nextFilePosition)

/-- The lines of the file. -/
def Block.lines : Block → List (List Char)
  | .nil => []
  | .line text rest => text :: rest.lines
  | .loop first _ body last rest => first :: (body.lines ++ last :: rest.lines)

/-- The text of the file. -/
def Block.text (block : Block) : List Char := joinLines '\n' block.lines

/-- The parser reads the lines as what they stand for, and no loop is endless. -/
def Block.WellFormed (parse : String → LoopCommand) : Block → Prop
  | .nil => True
  | .line text rest =>
      '\n' ∉ text ∧ parse (String.ofList text) = .other ∧ rest.WellFormed parse
  | .loop first count body last rest =>
      '\n' ∉ first ∧ parse (String.ofList first) = .loopBegin count ∧ 0 < count ∧
        body.WellFormed parse ∧ '\n' ∉ last ∧ parse (String.ofList last) = .loopEnd ∧
        rest.WellFormed parse

/-- The bytes of a line with its newline. -/
def lineSize (line : List Char) : Nat := (encodeUtf8 line).length + 1

/-- The bytes of a part of the file. -/
def Block.size (block : Block) : Nat := (encodeUtf8 block.text).length

/-- The lines to dispatch from a position on, where the body of each loop is executed as
many times as its `COUNT` says. -/
def Block.executed : Block → Nat → List (Nat × String)
  | .nil, _ => []
  | .line text rest, position =>
      (position, String.ofList text) :: rest.executed (position + lineSize text)
  | .loop first count body last rest, position =>
      let bodyPosition := position + lineSize first
      let endPosition := bodyPosition + body.size
      (position, String.ofList first) ::
        ((List.replicate count
          (body.executed bodyPosition ++ [(endPosition, String.ofList last)])).flatten ++
            rest.executed (endPosition + lineSize last))

/-! ## The abstract print of loops -/

section Loops

variable {C : Commands A} {stack : A → LoopStack} {parse : String → LoopCommand} {data : Bytes}

theorem encodeUtf8_lines (line : List Char) (lines : List (List Char)) :
    encodeUtf8 (joinLines '\n' (line :: lines)) =
      encodeUtf8 line ++ newline :: encodeUtf8 (joinLines '\n' lines) := by
  rw [encodeUtf8_joinLines newline_lt rfl, encodeUtf8_joinLines newline_lt rfl, List.map_cons,
    joinLines_cons]

theorem Block.size_line (text : List Char) (rest : Block) :
    (Block.line text rest).size = lineSize text + rest.size := by
  rw [Block.size, Block.text, Block.lines, encodeUtf8_lines, List.length_append, List.length_cons,
    lineSize, Block.size, Block.text]
  omega

theorem Block.text_loop (first : List Char) (count : Nat) (body : Block) (last : List Char)
    (rest : Block) :
    encodeUtf8 (Block.loop first count body last rest).text =
      encodeUtf8 first ++ newline :: (encodeUtf8 body.text ++
        (encodeUtf8 last ++ newline :: encodeUtf8 rest.text)) := by
  rw [Block.text, Block.lines, encodeUtf8_lines, joinLines_append, encodeUtf8_append,
    encodeUtf8_lines, Block.text, Block.text]

theorem Block.size_loop (first : List Char) (count : Nat) (body : Block) (last : List Char)
    (rest : Block) :
    (Block.loop first count body last rest).size =
      lineSize first + body.size + lineSize last + rest.size := by
  rw [Block.size, Block.text_loop]
  simp only [List.length_append, List.length_cons, lineSize, Block.size]
  omega

/-- The abstract print goes on to a loop stack and a position over some lines. -/
def Executes (C : Commands A) (data : Bytes) (stack : A → LoopStack) (s : Printed A)
    (loops : LoopStack) (position : Nat) (lines : List (Nat × String)) : Prop :=
  ∃ n, stack ((Printed.next C data)^[n] s).state = loops ∧
    ((Printed.next C data)^[n] s).position = position ∧
    ((Printed.next C data)^[n] s).log = s.log ++ lines

theorem Executes.trans {s : Printed A} {loops loops' : LoopStack} {position position' : Nat}
    {lines lines' : List (Nat × String)} (h : Executes C data stack s loops position lines)
    (h' : ∀ t : Printed A, stack t.state = loops → t.position = position →
      Executes C data stack t loops' position' lines') :
    Executes C data stack s loops' position' (lines ++ lines') := by
  obtain ⟨n, hstack, hposition, hlog⟩ := h
  obtain ⟨m, hstack', hposition', hlog'⟩ := h' _ hstack hposition
  refine ⟨m + n, ?_⟩
  rw [Function.iterate_add_apply]
  refine ⟨hstack', hposition', ?_⟩
  rw [hlog', hlog, List.append_assoc]

theorem drop_line {line : List Char} {position : Nat} {rest : Bytes}
    (hdata : data.drop position = encodeUtf8 line ++ newline :: rest) :
    data.drop (position + lineSize line) = rest := by
  have hfront : encodeUtf8 line ++ newline :: rest = (encodeUtf8 line ++ [newline]) ++ rest := by
    rw [List.append_assoc, List.singleton_append]
  have hlen : lineSize line = (encodeUtf8 line ++ [newline]).length := by
    rw [List.length_append, List.length_singleton, lineSize]
  rw [← List.drop_drop, hdata, hfront, hlen, List.drop_left]

theorem Block.drop {block : Block} {position : Nat} {rest : Bytes}
    (hdata : data.drop position = encodeUtf8 block.text ++ rest) :
    data.drop (position + block.size) = rest := by
  rw [← List.drop_drop, hdata, Block.size, List.drop_left]

theorem Printed.next_line {s : Printed A} {line : List Char} {rest : Bytes}
    (hline : '\n' ∉ line) (hdata : data.drop s.position = encodeUtf8 line ++ newline :: rest) :
    s.next C data =
      { state := (C s.state (String.ofList line) (s.position + lineSize line)).1
        position := (C s.state (String.ofList line) (s.position + lineSize line)).2
        log := s.log ++ [(s.position, String.ofList line)] } := by
  have hmem : newline ∉ encodeUtf8 line := fun hmem =>
    hline (mem_of_mem_encodeUtf8 newline_lt rfl hmem)
  have hfind : nextLine data s.position = some (encodeUtf8 line) := by
    rw [nextLine, hdata, linesOf_line hmem, List.head?_cons]
  rw [Printed.next_eq (Printed.line_eq hfind (decodeUtf8_encodeUtf8 line)), lineSize,
    Nat.add_assoc]

theorem Executes.line {s : Printed A} {line : List Char} {rest : Bytes} {loops : LoopStack}
    {position : Nat} (hline : '\n' ∉ line)
    (hdata : data.drop s.position = encodeUtf8 line ++ newline :: rest)
    (hposition : (C s.state (String.ofList line) (s.position + lineSize line)).2 = position)
    (hstack : stack (C s.state (String.ofList line) (s.position + lineSize line)).1 = loops) :
    Executes C data stack s loops position [(s.position, String.ofList line)] := by
  refine ⟨1, ?_⟩
  rw [Function.iterate_one, Printed.next_line hline hdata]
  exact ⟨hstack, hposition, rfl⟩

theorem IsLoops.other (hC : IsLoops C stack parse) {a : A} {text : String} (next : Nat)
    (hparse : parse text = .other) :
    (C a text next).2 = next ∧ stack (C a text next).1 = stack a := by
  have hrun := hC a text { VirtualSd.init with cmdFromSd := true, nextFilePosition := next } rfl
  rw [hparse, runLoopCommand, Option.some.injEq, Prod.mk.injEq] at hrun
  exact ⟨(congrArg VirtualSd.nextFilePosition hrun.1).symm, hrun.2.symm⟩

theorem IsLoops.begin (hC : IsLoops C stack parse) {a : A} {text : String} {count : Nat}
    (next : Nat) (hparse : parse text = .loopBegin count) :
    (C a text next).2 = next ∧ stack (C a text next).1 = (count, next) :: stack a := by
  have hrun := hC a text { VirtualSd.init with cmdFromSd := true, nextFilePosition := next } rfl
  rw [hparse, runLoopCommand, loopBegin, if_pos rfl, Option.map_some, Option.some.injEq,
    Prod.mk.injEq] at hrun
  exact ⟨(congrArg VirtualSd.nextFilePosition hrun.1).symm, hrun.2.symm⟩

theorem IsLoops.end (hC : IsLoops C stack parse) {a : A} {text : String} {n position : Nat}
    {outer : LoopStack} (next : Nat) (hparse : parse text = .loopEnd)
    (hstack : stack a = (n + 1, position) :: outer) :
    (n = 0 → (C a text next).2 = next ∧ stack (C a text next).1 = outer) ∧
      (0 < n → (C a text next).2 = position ∧
        stack (C a text next).1 = (n, position) :: outer) := by
  have hrun := hC a text { VirtualSd.init with cmdFromSd := true, nextFilePosition := next } rfl
  rw [hparse, runLoopCommand, hstack, loopEnd, if_pos rfl] at hrun
  simp only [Nat.add_eq_zero_iff, Nat.succ_ne_self, and_false, if_false] at hrun
  constructor
  · intro hn
    rw [if_pos (by rw [hn]), Option.some.injEq, Prod.mk.injEq] at hrun
    exact ⟨(congrArg VirtualSd.nextFilePosition hrun.1).symm, hrun.2.symm⟩
  · intro hn
    rw [if_neg (by omega), Option.some.injEq, Prod.mk.injEq] at hrun
    exact ⟨(congrArg VirtualSd.nextFilePosition hrun.1).symm, hrun.2.symm⟩

/-- The body of a loop is executed as often as its count says, if it is executed once. -/
theorem IsLoops.executes_repeats (hC : IsLoops C stack parse) {body : Block} {last : List Char}
    {position : Nat} {outer : LoopStack} {rest : Bytes} (hlast : '\n' ∉ last)
    (hparse : parse (String.ofList last) = .loopEnd)
    (hdata : data.drop position = encodeUtf8 body.text ++ (encodeUtf8 last ++ newline :: rest))
    (hbody : ∀ t : Printed A, t.position = position →
      Executes C data stack t (stack t.state) (position + body.size) (body.executed position))
    (n : Nat) (s : Printed A) (hstack : stack s.state = (n + 1, position) :: outer)
    (hposition : s.position = position) :
    Executes C data stack s outer (position + body.size + lineSize last)
      (List.replicate (n + 1)
        (body.executed position ++ [(position + body.size, String.ofList last)])).flatten := by
  have hend := Block.drop hdata
  induction n generalizing s with
  | zero =>
    rw [List.replicate_one, List.flatten_singleton]
    refine (hbody s hposition).trans fun t hloops ht => ?_
    obtain ⟨hdone, -⟩ := hC.end (a := t.state) (position + body.size + lineSize last) hparse
      (hloops.trans hstack)
    rw [← ht] at hend hdone ⊢
    exact .line hlast hend (hdone rfl).1 (hdone rfl).2
  | succ n ih =>
    rw [List.replicate_succ, List.flatten_cons]
    refine Executes.trans ?_ fun t (hloops : stack t.state = (n + 1, position) :: outer)
      (ht : t.position = position) => ih t hloops ht
    refine (hbody s hposition).trans fun t hloops ht => ?_
    obtain ⟨-, hback⟩ := hC.end (a := t.state) (position + body.size + lineSize last) hparse
      (hloops.trans hstack)
    rw [← ht] at hend hback ⊢
    exact .line hlast hend (hback n.succ_pos).1 (hback n.succ_pos).2

/-- A part of the file is executed, with each of its loops. -/
theorem Block.executes (hC : IsLoops C stack parse) {block : Block}
    (hwf : block.WellFormed parse) {s : Printed A} {rest : Bytes}
    (hdata : data.drop s.position = encodeUtf8 block.text ++ rest) :
    Executes C data stack s (stack s.state) (s.position + block.size)
      (block.executed s.position) := by
  induction block generalizing s rest with
  | nil => exact ⟨0, rfl, rfl, (List.append_nil _).symm⟩
  | line text more ih =>
    obtain ⟨hnewline, hparse, hwf⟩ := hwf
    rw [Block.text, Block.lines, encodeUtf8_lines, List.append_assoc, List.cons_append] at hdata
    obtain ⟨hposition, hstack⟩ := hC.other (a := s.state) (s.position + lineSize text) hparse
    rw [Block.size_line, ← Nat.add_assoc]
    refine (Executes.line hnewline hdata hposition hstack).trans fun t hloops ht => ?_
    have hdrop := drop_line hdata
    rw [← ht] at hdrop ⊢
    rw [← hloops]
    exact ih hwf hdrop
  | loop first count body last more ihbody ihmore =>
    obtain ⟨hfirst, hparse, hcount, hwfbody, hlast, hparse', hwfmore⟩ := hwf
    rw [Block.text_loop, List.append_assoc, List.cons_append, List.append_assoc,
      List.append_assoc, List.cons_append] at hdata
    obtain ⟨hposition, hstack⟩ := hC.begin (a := s.state) (s.position + lineSize first) hparse
    have hbody := drop_line hdata
    have hmore := drop_line (Block.drop hbody)
    obtain ⟨n, rfl⟩ : ∃ n, count = n + 1 := ⟨count - 1, by omega⟩
    rw [Block.size_loop, ← Nat.add_assoc, ← Nat.add_assoc, ← Nat.add_assoc]
    refine (Executes.line hfirst hdata hposition hstack).trans fun t hloops ht => ?_
    refine (hC.executes_repeats hlast hparse' hbody ?_ n t hloops ht).trans fun u hloops' hu => ?_
    · intro v hv
      rw [← hv] at hbody ⊢
      exact ihbody hwfbody hbody
    · rw [← hu] at hmore ⊢
      rw [← hloops']
      exact ihmore hwfmore hmore

end Loops

/-! ## Where the print follows -/

/-- A position where a line starts, or the end of the text. -/
def LineStart (text : List Char) (position : Nat) : Prop := ∃ n, position = lineOffset text n

/-- A line leaves a pause requested if one was, or if `pauses` says so. -/
def Host.PausesAs (h : Host σ) (data : Bytes) (abs : σ → A) (pauses : A → String → Bool) : Prop :=
  ∀ text w, IsLine data text → w.sd.workTimer = true → w.sd.cmdFromSd = true →
    (h.runScript text w).2.sd.mustPauseWork = (w.sd.mustPauseWork || pauses (abs w.host) text)

/-- The next line does not change the file position to that of another line, unless a
pause is requested while it runs. -/
def Stays (data : Bytes) (C : Commands A) (pauses : A → String → Bool) (s : Printed A) : Prop :=
  ∀ line text, s.line data = some (line, text) →
    (s.next C data).position = s.position + line.length + 1 ∨
      data.length ≤ (s.next C data).position ∨ pauses s.state text = true

/-- The print of a file dispatches what the abstract one does: it comes to every number of
lines, and at the end of the file it is noted complete. -/
def Followed (h : Host σ) (C : Commands A) (abs : σ → A) (data : Bytes) (host : σ) : Prop :=
  ∀ n, ∃ k, ((step h)^[k] (loaded data host)).log = (printed C data (abs host) n).log ∧
    (nextLine data (printed C data (abs host) n).position = none →
      ((step h)^[k] (loaded data host)).Complete)

section Follow

variable {h : Host σ} {C : Commands A} {abs : σ → A} {pauses : A → String → Bool} {data : Bytes}

theorem Stays.continues (hpauses : h.PausesAs data abs pauses) {s : Printed A}
    (hstays : Stays data C pauses s) : Continues h data C abs s := by
  intro line text hline
  rcases hstays line text hline with hstay | hend | hpause
  · exact .inl hstay
  · exact .inr (.inl hend)
  · refine .inr (.inr fun w hstate htimer hcmd => ?_)
    obtain ⟨line', hfind, hdecode⟩ := Option.bind_eq_some_iff.mp hline
    obtain ⟨text', htext, heq⟩ := Option.map_eq_some_iff.mp hdecode
    rw [Prod.mk.injEq] at heq
    rw [heq.2] at htext
    rw [hpauses text w ⟨_, _, hfind, htext⟩ htimer hcmd, hstate, hpause, Bool.or_true]

/-- A line that does not stay ends the print with an exception, right after it. -/
theorem Stands.leads_crashed (hruns : h.Runs data C abs) (hprompt : h.Prompt)
    (hpauses : h.PausesAs data abs pauses) {s : Printed A} {p : Print σ}
    (hp : Stands data abs s p) (hgo : GoesOn data p) (hstays : ¬ Stays data C pauses s) :
    ∃ w, Leads h p (.crashed w (s.next C data).log) ∧
      (s.next C data).position < data.length := by
  simp only [Stays, not_forall, not_or] at hstays
  obtain ⟨line, text, hline, hjump, hinside, hpause⟩ := hstays
  obtain ⟨l, w, offset, hlead, hl, ⟨hstate, htimer, hcmd, hquiet⟩, hset, hcase⟩ :=
    hp.leads_next hruns hprompt hgo hline
  rcases hcase with ⟨hstay, -⟩ | ⟨-, hlines, hpart⟩
  · exact absurd hstay hjump
  obtain ⟨line', hfind, hdecode⟩ := Option.bind_eq_some_iff.mp hline
  obtain ⟨text', htext, heq⟩ := Option.map_eq_some_iff.mp hdecode
  rw [Prod.mk.injEq] at heq
  rw [heq.2] at htext
  rw [hpauses text w ⟨_, _, hfind, htext⟩ htimer hcmd, hquiet, hstate, Bool.false_or,
    Bool.eq_false_iff.mpr hpause] at hset
  -- the next pass of the loop reads a block
  have hbuffer := hl.buffer
  rw [hlines, hpart] at hbuffer
  cases hbuffer
  have hread : (data.drop (s.next C data).position).take 8192 ≠ [] := by
    rw [ne_eq, List.take_eq_nil_iff, List.drop_eq_nil_iff]
    omega
  obtain ⟨l', hround, hlog, hposition⟩ := hl.readJumped hruns.toLeaves hlines hpart hread
  refine ⟨l'.toWorld, hlead.trans (.single ?_), hposition⟩
  rw [step_working hset, hround, Flow.print, hlog]

/-- If some line does not stay, the print ends with an exception after the first such
line. -/
theorem exists_crashed (hruns : h.Runs data C abs) (hprompt : h.Prompt)
    (hpauses : h.PausesAs data abs pauses) (host : σ)
    (hstays : ¬ ∀ n, Stays data C pauses (printed C data (abs host) n)) :
    ∃ n k w, (step h)^[k] (loaded data host) =
        .crashed w (printed C data (abs host) (n + 1)).log ∧
      (printed C data (abs host) (n + 1)).position < data.length := by
  classical
  have hex : ∃ n, ¬ Stays data C pauses (printed C data (abs host) n) := by
    simpa only [not_forall] using hstays
  obtain ⟨p, hlead, hp, hgo⟩ := leads_printed hruns hprompt host (n := Nat.find hex)
    fun m hm => (not_not.mp (Nat.find_min hex hm)).continues hpauses
  obtain ⟨w, hlead', hposition⟩ :=
    hp.leads_crashed hruns hprompt hpauses hgo (Nat.find_spec hex)
  rw [← printed_succ] at hlead' hposition
  obtain ⟨k, hk⟩ := hlead.trans hlead'
  exact ⟨Nat.find hex, k, w, hk, hposition⟩

theorem not_complete (hruns : h.Runs data C abs) (hprompt : h.Prompt)
    (hpauses : h.PausesAs data abs pauses) (host : σ)
    (hstays : ¬ ∀ n, Stays data C pauses (printed C data (abs host) n)) (k : Nat) :
    ¬ ((step h)^[k] (loaded data host)).Complete := by
  obtain ⟨n, K, w, hcrash, -⟩ := exists_crashed hruns hprompt hpauses host hstays
  intro hcomplete
  rcases Nat.le_total k K with hle | hle
  · -- a complete print would have stayed complete
    obtain ⟨m, rfl⟩ := Nat.exists_eq_add_of_le' hle
    rw [Function.iterate_add_apply, iterate_step_of_complete h m hcomplete] at hcrash
    rw [hcrash] at hcomplete
    exact hcomplete
  · obtain ⟨m, rfl⟩ := Nat.exists_eq_add_of_le' hle
    rw [Function.iterate_add_apply, hcrash, iterate_step_crashed] at hcomplete
    exact hcomplete

theorem followed_of_stays (hruns : h.Runs data C abs) (hprompt : h.Prompt)
    (hpauses : h.PausesAs data abs pauses) (host : σ)
    (hstays : ∀ n, Stays data C pauses (printed C data (abs host) n)) :
    Followed h C abs data host := by
  intro n
  obtain ⟨p, ⟨k, rfl⟩, hp, hgo⟩ := leads_printed hruns hprompt host (n := n)
    fun m _ => (hstays m).continues hpauses
  cases hend : nextLine data (printed C data (abs host) n).position with
  | some line => exact ⟨k, hp.log_eq, fun hnone => by cases hnone⟩
  | none =>
    obtain ⟨w, after, ⟨m, hdone⟩, hstands⟩ := hp.leads_complete hruns.toLeaves hprompt hgo hend
    refine ⟨m + k, ?_⟩
    rw [Function.iterate_add_apply, hdone]
    cases hstands with
    | complete _ hstate _ _ => exact ⟨rfl, fun _ => hstate⟩

end Follow

/-! ## The result -/

theorem LineStart.line {text : List Char} {s : Printed A}
    (hterm : text = [] ∨ text.getLast? = some '\n') (hstart : LineStart text s.position)
    (hinside : s.position < (encodeUtf8 text).length) :
    ∃ line str, s.line (encodeUtf8 text) = some (line, str) := by
  obtain ⟨n, hn⟩ := hstart
  have hfind := nextLine_lineOffset text n
  rw [← hn] at hfind
  cases hline : (fileLines text)[n]? with
  | some line =>
    rw [hline, Option.map_some] at hfind
    exact ⟨_, _, Printed.line_eq hfind (decodeUtf8_encodeUtf8 line)⟩
  | none =>
    -- past the last line nothing is left
    exfalso
    have hdrop := drop_lineOffset text n
    rw [List.drop_eq_nil_of_le (List.getElem?_eq_none_iff.mp hline), joinLines_nil,
      List.nil_append, tailOf_eq_nil_iff.mpr hterm, encodeUtf8_nil, List.drop_eq_nil_iff, ← hn]
      at hdrop
    omega

theorem Host.pausesAs_ofCommands (C : Commands A) (pauses : A → String → Bool) (data : Bytes) :
    (Host.ofCommands C pauses).PausesAs data id pauses := by
  intro text w _ htimer _
  simp only [Host.ofCommands, VirtualSd.doPause, VirtualSd.setFilePosition, htimer, if_true, id]
  cases pauses w.host text with
  | true => exact (Bool.or_true _).symm
  | false => exact (Bool.or_false _).symm

/-- A print follows the changes of the file position exactly if none of them is to another
line of the file, or else a pause is requested while the line runs; and under the same
condition, a file made of loops executes the body of each loop as often as its count
says. -/
theorem sdPrint_followed_iff {h : Host σ} {C : Commands A} {abs : σ → A}
    {pauses : A → String → Bool} {text : List Char}
    (hterm : text = [] ∨ text.getLast? = some '\n')
    (hruns : h.Runs (encodeUtf8 text) C abs) (hprompt : h.Prompt)
    (hpauses : h.PausesAs (encodeUtf8 text) abs pauses) (host : σ)
    (hstarts : ∀ n, LineStart text (printed C (encodeUtf8 text) (abs host) n).position) :
    (Followed h C abs (encodeUtf8 text) host ↔
      ∀ n, Stays (encodeUtf8 text) C pauses (printed C (encodeUtf8 text) (abs host) n)) ∧
    ∀ (stack : A → LoopStack) (parse : String → LoopCommand) (block : Block),
      IsLoops C stack parse → block.WellFormed parse → text = block.text →
      ((∃ k, ((step h)^[k] (loaded (encodeUtf8 text) host)).Complete ∧
          ((step h)^[k] (loaded (encodeUtf8 text) host)).log = block.executed 0) ↔
        ∀ n, Stays (encodeUtf8 text) C pauses (printed C (encodeUtf8 text) (abs host) n)) := by
  constructor
  · refine ⟨fun hfollowed => ?_, followed_of_stays hruns hprompt hpauses host⟩
    by_contra hstays
    obtain ⟨n, K, w, hcrash, hinside⟩ := exists_crashed hruns hprompt hpauses host hstays
    obtain ⟨line, str, hline⟩ := (hstarts (n + 1)).line hterm hinside
    -- the abstract print goes on, the print does not
    obtain ⟨k, hlog, -⟩ := hfollowed (n + 1 + 1)
    have hlength : ((step h)^[k] (loaded (encodeUtf8 text) host)).log.length =
        (printed C (encodeUtf8 text) (abs host) (n + 1)).log.length + 1 := by
      rw [hlog, printed_succ, Printed.next_eq hline, List.length_append, List.length_singleton]
    have hlast : ((step h)^[K] (loaded (encodeUtf8 text) host)).log.length =
        (printed C (encodeUtf8 text) (abs host) (n + 1)).log.length := by
      rw [hcrash]
      rfl
    rcases Nat.le_total k K with hle | hle
    · have hmono := (log_grows h hle (loaded (encodeUtf8 text) host)).length_le
      omega
    · obtain ⟨m, rfl⟩ := Nat.exists_eq_add_of_le' hle
      rw [Function.iterate_add_apply, hcrash, iterate_step_crashed] at hlength
      exact absurd hlength (Nat.ne_of_lt (Nat.lt_succ_self _))
  · intro stack parse block hC hwf htext
    constructor
    · rintro ⟨k, hcomplete, -⟩
      by_contra hstays
      exact not_complete hruns hprompt hpauses host hstays k hcomplete
    · intro hstays
      have hdata : (encodeUtf8 text).drop (0 : Nat) = encodeUtf8 block.text ++ [] := by
        rw [List.drop_zero, List.append_nil, htext]
      obtain ⟨n, -, hposition, hlog⟩ :=
        Block.executes hC hwf (s := ⟨abs host, 0, []⟩) hdata
      obtain ⟨k, hk, hcomplete⟩ := followed_of_stays hruns hprompt hpauses host hstays n
      refine ⟨k, hcomplete ?_, hk.trans (hlog.trans (List.nil_append _))⟩
      have hend : (printed C (encodeUtf8 text) (abs host) n).position =
          (encodeUtf8 text).length := by
        rw [printed, hposition, Block.size, ← htext, Nat.zero_add]
      rw [hend]
      exact nextLine_eq_none_of_le (Nat.le_refl _)

/-! ## Two files -/

/-- A file whose second line goes back to the first. -/
def rewind : Commands Unit := fun _ text next => ((), if text = "REWIND" then 0 else next)

theorem rewind_position (n : Nat) :
    (printed rewind (encodeUtf8 "G1\nREWIND\n".toList) () n).position = 0 ∨
      (printed rewind (encodeUtf8 "G1\nREWIND\n".toList) () n).position = 3 := by
  induction n with
  | zero => exact .inl rfl
  | succ n ih =>
    rw [printed_succ]
    rcases ih with h | h
    · right
      have hdata : (encodeUtf8 "G1\nREWIND\n".toList).drop (0 : Nat) =
          encodeUtf8 "G1".toList ++ newline :: encodeUtf8 "REWIND\n".toList := by decide
      rw [← h] at hdata
      rw [Printed.next_line (by decide) hdata, h]
      rfl
    · left
      have hdata : (encodeUtf8 "G1\nREWIND\n".toList).drop (3 : Nat) =
          encodeUtf8 "REWIND".toList ++ newline :: [] := by decide
      rw [← h] at hdata
      rw [Printed.next_line (by decide) hdata]
      rfl

/-- A change of position is followed when its line is paused. -/
theorem sdPrint_followed_paused :
    Followed (Host.ofCommands rewind fun _ text => decide (text = "REWIND")) rewind id
      (encodeUtf8 "G1\nREWIND\n".toList) () := by
  refine ((sdPrint_followed_iff (.inr (by decide)) (Host.runs_ofCommands _ _ _)
    (Host.prompt_ofCommands _ _) (Host.pausesAs_ofCommands _ _ _) () ?_).1).mpr ?_
  · intro n
    rcases rewind_position n with h | h
    · exact ⟨0, h⟩
    · exact ⟨1, h⟩
  · intro n line text hline
    rw [Printed.next_eq hline]
    by_cases htext : text = "REWIND"
    · exact .inr (.inr (decide_eq_true htext))
    · exact .inl (if_neg htext)

/-- The commands of a file with one loop. -/
def parseTwice (text : String) : LoopCommand :=
  if text = "SDCARD_LOOP_BEGIN COUNT=2" then .loopBegin 2
  else if text = "SDCARD_LOOP_END" then .loopEnd
  else .other

/-- A loop with two repeats. -/
def twice : Block :=
  .loop "SDCARD_LOOP_BEGIN COUNT=2".toList 2 (.line "G1 E1".toList .nil)
    "SDCARD_LOOP_END".toList .nil

/-- The file with two repeats is never printed to its end. -/
theorem sdPrint_twice_lost :
    twice.WellFormed parseTwice ∧
      ∀ k, ¬ ((step (Host.ofCommands (loopCommands parseTwice) fun _ _ => false))^[k]
        (loaded (encodeUtf8 twice.text) [])).Complete := by
  refine ⟨⟨by decide, rfl, by decide, ⟨by decide, rfl, trivial⟩, by decide, rfl, trivial⟩,
    not_complete (Host.runs_ofCommands _ _ _) (Host.prompt_ofCommands _ _)
      (Host.pausesAs_ofCommands _ _ _) [] fun hstays => ?_⟩
  have hdata : (encodeUtf8 twice.text).drop (0 : Nat) =
      encodeUtf8 "SDCARD_LOOP_BEGIN COUNT=2".toList ++
        newline :: encodeUtf8 "G1 E1\nSDCARD_LOOP_END\n".toList := by decide
  have hfirst : printed (loopCommands parseTwice) (encodeUtf8 twice.text) [] 1 =
      ⟨[(2, 26)], 26, [(0, "SDCARD_LOOP_BEGIN COUNT=2")]⟩ :=
    Printed.next_line (C := loopCommands parseTwice) (s := ⟨[], 0, []⟩)
      (show '\n' ∉ "SDCARD_LOOP_BEGIN COUNT=2".toList by decide) hdata
  have hdata' : (encodeUtf8 twice.text).drop (26 : Nat) =
      encodeUtf8 "G1 E1".toList ++ newline :: encodeUtf8 "SDCARD_LOOP_END\n".toList := by decide
  have hbody : printed (loopCommands parseTwice) (encodeUtf8 twice.text) [] 2 =
      ⟨[(2, 26)], 32, [(0, "SDCARD_LOOP_BEGIN COUNT=2"), (26, "G1 E1")]⟩ := by
    rw [printed_succ, hfirst]
    exact Printed.next_line (C := loopCommands parseTwice)
      (show '\n' ∉ "G1 E1".toList by decide) hdata'
  -- the end of the loop goes back to its body
  have hend := hstays 2 (encodeUtf8 "SDCARD_LOOP_END".toList) "SDCARD_LOOP_END"
  rw [id, hbody] at hend
  have hline : (⟨[(2, 26)], 32, [(0, "SDCARD_LOOP_BEGIN COUNT=2"), (26, "G1 E1")]⟩ :
      Printed LoopStack).line (encodeUtf8 twice.text) =
        some (encodeUtf8 "SDCARD_LOOP_END".toList, "SDCARD_LOOP_END") :=
    Printed.line_eq (by decide) (decodeUtf8_encodeUtf8 _)
  have hback := hend hline
  rw [Printed.next_eq hline] at hback
  revert hback
  decide

end FlsunT1.Klippy
