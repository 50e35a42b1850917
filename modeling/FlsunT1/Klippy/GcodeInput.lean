/-
  Klippy/GcodeInput.lean --- g-code from a pseudo-tty or a file
  (class GCodeIO, klippy/gcode.py).

  A read gives some bytes of the stream.  `_process_commands` may wait, and reads that arrive
  before it returns find `is_processing_data` set; its return is an event of its own.
-/
import FlsunT1.Library.Run
import FlsunT1.Library.Text
import FlsunT1.Library.Utf8

set_option autoImplicit false

namespace FlsunT1.Klippy

open Library

/-- `m112_r.match(line)` -/
def isM112 (line : Text) : Bool :=
  let afterNumber : Text :=
    match line with
    | c :: rest =>
      if (c == 'n' || c == 'N') && (rest.takeWhile Char.isDigit).length != 0 then
        rest.dropWhile Char.isDigit
      else line
    | [] => []
  match afterNumber.dropWhile Text.isSpace with
  | m :: '1' :: '1' :: '2' :: rest => (m == 'm' || m == 'M') && rest.head?.all Text.isSpace
  | _ => false

/-! ## The reader -/

/-- The state of `GCodeIO`, with what it has read, the lines that it has passed to
`_process_commands`, and how often it has called `cmd_M112` out of order. -/
structure GcodeIo where
  isFileinput : Bool
  isProcessingData : Bool
  /-- `fd_handle` is not `None` -/
  registered : Bool
  partialInput : Text
  pendingCommands : List Text
  stream : List UInt8
  passed : List Text
  emergencies : ℕ
  deriving DecidableEq

namespace GcodeIo

/-- `__init__` -/
def init (isFileinput : Bool) : GcodeIo :=
  ⟨isFileinput, false, !isFileinput, [], [], [], [], 0⟩

/-- `_handle_ready`, as far as it starts the input from a file. -/
def handleReady (s : GcodeIo) : GcodeIo :=
  if s.isFileinput then { s with registered := true } else s

/-- The loop of `_process_data`, up to its next call of `_process_commands` or to its end. -/
def processPending (pending : List Text) (s : GcodeIo) : GcodeIo :=
  if pending = [] then
    { s with isProcessingData := false, registered := true, pendingCommands := [] }
  else
    { s with isProcessingData := true, pendingCommands := [], passed := s.passed ++ pending }

/-- How `_process_data` looks for an M112 out of order, when several commands are pending. -/
def checkM112 (pending lines : List Text) (s : GcodeIo) : GcodeIo :=
  if (s.isProcessingData = true ∨ 1 < pending.length) ∧ pending.length < 20 then
    { s with emergencies := s.emergencies + lines.countP isM112 }
  else s

/-- `_process_data`, with the bytes of its read. -/
def processData (bytes : List UInt8) (s : GcodeIo) : GcodeIo :=
  match decodeUtf8 bytes with
  | none => s
  | some data =>
    let pieces := (data.toList.splitOn '\n').modifyHead (s.partialInput ++ ·)
    let lines := pieces.dropLast
    let s := { s with partialInput := pieces.getLastD [] }
    let eof := data.isEmpty && s.isFileinput
    let pending := s.pendingCommands ++ lines ++ if eof then [[]] else []
    let s := if eof && !s.isProcessingData then { s with registered := false } else s
    let s := checkM112 pending lines s
    if s.isProcessingData then
      { s with
        pendingCommands := pending
        registered := s.registered && decide (pending.length < 20) }
    else processPending pending s

/-! ## Runs -/

/-- What happens to the reader. -/
inductive IoEvent
  | ready
  /-- a read of the stream -/
  | read (bytes : List UInt8)
  /-- `os.read` raises -/
  | readError
  /-- `_process_commands` returns -/
  | processed
  deriving DecidableEq

/-- A step of the reader, which reads at most 4096 bytes at a time and only while it is
registered. -/
inductive Step : GcodeIo → IoEvent → GcodeIo → Prop
  | ready {s : GcodeIo} : Step s .ready s.handleReady
  | read {s : GcodeIo} {bytes : List UInt8} (hreg : s.registered = true) (hne : bytes ≠ [])
      (hlen : bytes.length ≤ 4096) :
      Step s (.read bytes) { s.processData bytes with stream := s.stream ++ bytes }
  | readError {s : GcodeIo} (hreg : s.registered = true) : Step s .readError s
  | processed {s : GcodeIo} (hproc : s.isProcessingData = true) :
      Step s .processed (s.processPending s.pendingCommands)

/-- The lines that were passed are the first complete lines of the stream, in order and once each,
and all of them when no command is being processed. -/
def PassesLines (s : GcodeIo) : Prop :=
  s.passed.map encodeUtf8 <+: linesOf 10 s.stream ∧
    (s.isProcessingData = false → s.passed.map encodeUtf8 = linesOf 10 s.stream)

/-- The bytes of a read are UTF-8 by themselves: no character is cut. -/
def WholeCharacters : IoEvent → Prop
  | .read bytes => (decodeUtf8 bytes).isSome = true
  | _ => True

instance : DecidablePred WholeCharacters
  | .read _ => inferInstanceAs (Decidable (_ = true))
  | .ready | .readError | .processed => inferInstanceAs (Decidable True)

/-! ## Reads of whole characters -/

variable {s t : GcodeIo} {es : List IoEvent}

/-- Before its next event the reader holds the text of the stream: its complete lines are passed or
pending, and what follows them is the partial input. -/
structure Holds (text : Text) (s : GcodeIo) : Prop where
  stream : s.stream = encodeUtf8 text
  lines : s.passed ++ s.pendingCommands = linesOf '\n' text
  partialInput : s.partialInput = tailOf '\n' text
  idle : s.isProcessingData = false → s.pendingCommands = []

theorem Holds.passesLines {text : Text} (h : s.Holds text) : s.PassesLines := by
  have hlines : linesOf 10 s.stream = (linesOf '\n' text).map encodeUtf8 := by
    rw [h.stream]
    exact linesOf_encodeUtf8 (by decide) rfl text
  unfold PassesLines
  rw [hlines, ← h.lines, List.map_append]
  refine ⟨List.prefix_append _ _, fun hidle => ?_⟩
  rw [h.idle hidle, List.map_nil, List.append_nil]

theorem holds_init (isFileinput : Bool) : (init isFileinput).Holds [] :=
  ⟨rfl, rfl, rfl, fun _ => rfl⟩

theorem checkM112_eq (pending lines : List Text) (s : GcodeIo) :
    ∃ n, checkM112 pending lines s = { s with emergencies := n } := by
  unfold checkM112
  split
  · exact ⟨_, rfl⟩
  · exact ⟨s.emergencies, rfl⟩

theorem holds_processPending {text : Text} {pending : List Text} {stream : List UInt8}
    (hstream : stream = encodeUtf8 text) (hlines : s.passed ++ pending = linesOf '\n' text)
    (hinput : s.partialInput = tailOf '\n' text) :
    Holds text { s.processPending pending with stream := stream } := by
  unfold processPending
  split
  · rename_i hnil
    rw [hnil] at hlines
    exact ⟨hstream, hlines, hinput, fun _ => rfl⟩
  · exact ⟨hstream, (List.append_nil _).trans hlines, hinput, fun _ => rfl⟩

theorem Holds.processPending {text : Text} (h : s.Holds text) :
    (s.processPending s.pendingCommands).Holds text := by
  have hheld := holds_processPending h.stream h.lines h.partialInput
  unfold GcodeIo.processPending at hheld ⊢
  split at hheld
  · rename_i hnil
    rw [if_pos hnil]
    exact hheld
  · rename_i hne
    rw [if_neg hne]
    exact hheld

/-- A read of whole characters goes on with the text. -/
theorem holds_processData {text : Text} {bytes : List UInt8} {data : String} (h : s.Holds text)
    (hne : bytes ≠ []) (hdata : decodeUtf8 bytes = some data) :
    Holds (text ++ data.toList) { s.processData bytes with stream := s.stream ++ bytes } := by
  have hbytes := eq_encodeUtf8_of_decodeUtf8 hdata
  have heof : data.isEmpty = false := by
    rw [String.isEmpty_eq_false_iff]
    rintro rfl
    exact hne hbytes
  have hpieces : (data.toList.splitOn '\n').modifyHead (s.partialInput ++ ·) =
      (tailOf '\n' text ++ data.toList).splitOn '\n' := by
    rw [h.partialInput]
    exact (splitOn_append (not_mem_tailOf text) _).symm
  obtain ⟨hlinesOf, htailOf⟩ :
      linesOf '\n' (text ++ data.toList) = _ ∧ tailOf '\n' (text ++ data.toList) = _ :=
    linesOf_append_tail text data.toList
  have hstream : s.stream ++ bytes = encodeUtf8 (text ++ data.toList) := by
    rw [h.stream, hbytes, encodeUtf8_append]
  have hlines : s.passed ++ (s.pendingCommands ++ linesOf '\n' (tailOf '\n' text ++ data.toList)) =
      linesOf '\n' (text ++ data.toList) := by
    rw [← List.append_assoc, h.lines, hlinesOf]
  unfold processData
  rw [hdata]
  dsimp only
  rw [hpieces, heof, splitOn_eq, List.dropLast_concat, List.getLastD_concat, ← htailOf]
  simp only [Bool.false_and, Bool.false_eq_true, if_false, List.append_nil]
  generalize s.pendingCommands ++ linesOf '\n' (tailOf '\n' text ++ data.toList) = pending at *
  obtain ⟨n, hn⟩ := checkM112_eq pending (linesOf '\n' (tailOf '\n' text ++ data.toList))
    { s with partialInput := tailOf '\n' (text ++ data.toList) }
  rw [hn]
  split
  · rename_i hproc
    exact ⟨hstream, hlines, rfl, fun hidle => absurd hidle (Bool.not_eq_false _ ▸ hproc)⟩
  · exact holds_processPending hstream hlines rfl

theorem holds_step {e : IoEvent} {text : Text} (h : s.Holds text) (he : WholeCharacters e)
    (hstep : Step s e t) : ∃ text', t.Holds text' := by
  cases hstep with
  | ready =>
    refine ⟨text, ?_⟩
    unfold handleReady
    split
    · exact ⟨h.stream, h.lines, h.partialInput, h.idle⟩
    · exact h
  | read hreg hne hlen =>
    obtain ⟨data, hdata⟩ := Option.isSome_iff_exists.mp he
    exact ⟨_, holds_processData h hne hdata⟩
  | readError hreg => exact ⟨text, h⟩
  | processed hproc => exact ⟨text, h.processPending⟩

theorem exists_processed {text : Text} (h : s.Holds text) :
    ∃ n t, Run Step s (List.replicate n .processed) t ∧ t.Holds text ∧
      t.isProcessingData = false := by
  cases hproc : s.isProcessingData with
  | false => exact ⟨0, s, .nil, h, hproc⟩
  | true =>
    have hfirst := Run.single (Step.processed hproc)
    have hheld := h.processPending
    cases hpending : s.pendingCommands with
    | nil =>
      rw [hpending] at hfirst hheld
      exact ⟨1, _, hfirst, hheld, rfl⟩
    | cons l ls =>
      rw [hpending] at hfirst hheld
      have hsecond := hfirst.append (.single (Step.processed rfl))
      exact ⟨2, _, hsecond, hheld.processPending, rfl⟩

/-- In every run whose reads cut no character, the lines that are passed are those of the stream in
every state that is reached, and the rest is passed as the commands are processed. -/
theorem passesLines_of_wholeCharacters {isFileinput : Bool}
    (h : Run Step (init isFileinput) es s) (hes : ∀ e ∈ es, WholeCharacters e) :
    s.PassesLines ∧
      ∃ n t, Run Step s (List.replicate n .processed) t ∧ t.stream = s.stream ∧
        t.passed.map encodeUtf8 = linesOf 10 s.stream := by
  have hheld : ∃ text, s.Holds text :=
    (h.and_events hes).invariant (P := fun s => ∃ text, s.Holds text) ⟨[], holds_init isFileinput⟩
      fun _ _ _ ⟨_, hs⟩ hstep => holds_step hs hstep.2 hstep.1
  obtain ⟨text, hheld⟩ := hheld
  obtain ⟨n, t, hrun, ht, hidle⟩ := exists_processed hheld
  have hstream : t.stream = s.stream := ht.stream.trans hheld.stream.symm
  refine ⟨hheld.passesLines, n, t, hrun, hstream, ?_⟩
  rw [← hstream]
  exact ht.passesLines.2 hidle

/-- A command that is cut in two reads, the second one while the first command is processed. -/
theorem passesLines_of_wholeCharacters_two :
    ∃ s : GcodeIo, s.passed = ["G28".toList, "M105".toList] ∧ s.PassesLines := by
  have hfirst : Run Step (init false) [.read "G28\nM1".toUTF8.toList] _ :=
    .single (.read rfl (by decide +kernel) (by decide +kernel))
  have hsecond : Run Step (init false) (_ ++ [.read "05\n".toUTF8.toList]) _ :=
    hfirst.append (.single (.read (by decide +kernel) (by decide +kernel) (by decide +kernel)))
  have hrun := hsecond.append (.single (.processed (by decide +kernel)))
  exact ⟨_, by decide +kernel, (passesLines_of_wholeCharacters hrun (by decide +kernel)).1⟩

/-- The two bytes of a letter come in two reads, and the line is lost. -/
theorem line_lost_after_cut :
    ∃ s : GcodeIo,
      Run Step (init false) [.read ("M117 ".toUTF8.toList ++ [0xc3]), .read [0xa9, 10]] s ∧
        s.stream = "M117 é\n".toUTF8.toList ∧ s.isProcessingData = false ∧ ¬ s.PassesLines := by
  have hfirst : Run Step (init false) [.read ("M117 ".toUTF8.toList ++ [0xc3])] _ :=
    .single (.read rfl (by decide +kernel) (by decide +kernel))
  have hrun : Run Step (init false) (_ ++ [.read [0xa9, 10]]) _ :=
    hfirst.append (.single (.read (by decide +kernel) (by decide +kernel) (by decide +kernel)))
  refine ⟨_, hrun, by decide +kernel, by decide +kernel, ?_⟩
  rintro ⟨-, hidle⟩
  exact absurd (hidle (by decide +kernel)) (by decide +kernel)

end GcodeIo

end FlsunT1.Klippy
