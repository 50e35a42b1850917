/-
  Klippy/SdPause.lean --- a file is printed line by line across pauses.

  Here no line of the file fails or changes the file position.
-/
import FlsunT1.Klippy.SdPrint

set_option autoImplicit false

namespace FlsunT1.Klippy

open Library

variable {σ : Type*}

/-- Lines that do not change the file position. -/
def straight : Commands Unit := fun _ _ next => ((), next)

/-- The text split at its newlines, without the last piece, which is empty when the text
ends with a newline. -/
def fileLines (text : List Char) : List (List Char) := (text.splitOn '\n').dropLast

/-- The byte offset of the line `n` of a text. -/
def lineOffset (text : List Char) (n : Nat) : Nat :=
  (encodeUtf8 (joinLines '\n' ((fileLines text).take n))).length

/-- The lines of a text, each with its byte offset. -/
def numberedLines (text : List Char) : List (Nat × String) :=
  (fileLines text).mapIdx fun n line => (lineOffset text n, String.ofList line)

section Text

variable (text : List Char)

theorem newline_lt : newline < 0x80 := by decide

theorem length_numberedLines : (numberedLines text).length = (fileLines text).length :=
  List.length_mapIdx

theorem drop_lineOffset (n : Nat) :
    (encodeUtf8 text).drop (lineOffset text n) =
      encodeUtf8 (joinLines '\n' ((fileLines text).drop n) ++ tailOf '\n' text) := by
  have htext : text = joinLines '\n' ((fileLines text).take n) ++
      (joinLines '\n' ((fileLines text).drop n) ++ tailOf '\n' text) := by
    rw [← List.append_assoc, ← joinLines_append, List.take_append_drop]
    exact (joinLines_linesOf text).symm
  conv_lhs => rw [htext]
  rw [encodeUtf8_append, lineOffset, ← htext, List.drop_left]

theorem nextLine_lineOffset (n : Nat) :
    nextLine (encodeUtf8 text) (lineOffset text n) = ((fileLines text)[n]?).map encodeUtf8 := by
  have hlines : ∀ l ∈ (fileLines text).drop n, '\n' ∉ l := fun l hl =>
    not_mem_of_mem_linesOf (List.mem_of_mem_drop hl)
  rw [nextLine, drop_lineOffset, linesOf_encodeUtf8 newline_lt (show '\n'.toNat = newline.toNat from rfl),
    linesOf_joinLines hlines, linesOf_eq_nil (not_mem_tailOf text), List.append_nil,
    List.head?_map, List.head?_drop]

theorem lineOffset_succ {n : Nat} {line : List Char} (h : (fileLines text)[n]? = some line) :
    lineOffset text (n + 1) = lineOffset text n + (encodeUtf8 line).length + 1 := by
  have hnewline : encodeUtf8 ['\n'] = [newline] := encodeUtf8_singleton newline_lt rfl
  have hcons : line ++ '\n' :: [] = line ++ ['\n'] := rfl
  rw [lineOffset, List.take_add_one, h, Option.toList_some, joinLines_append, joinLines_cons,
    joinLines_nil, hcons, encodeUtf8_append, encodeUtf8_append, hnewline, List.length_append,
    List.length_append, List.length_singleton, lineOffset, Nat.add_assoc]

theorem flatMap_numberedLines (hterm : text = [] ∨ text.getLast? = some '\n') :
    (numberedLines text).flatMap (fun entry => entry.2.toList ++ ['\n']) = text := by
  have hlines : (numberedLines text).map (fun entry => entry.2.toList) = fileLines text := by
    apply List.ext_getElem?
    intro n
    simp [numberedLines, Function.comp_def]
  have htext : joinLines '\n' (fileLines text) ++ tailOf '\n' text = text :=
    joinLines_linesOf text
  rw [tailOf_eq_nil_iff.mpr hterm, List.append_nil, ← hlines, joinLines, List.flatMap_map] at htext
  exact htext

theorem printed_straight_last {n : Nat} (h : (fileLines text).length ≤ n)
    (hposition : ∀ m, (printed straight (encodeUtf8 text) () m).position = lineOffset text m) :
    printed straight (encodeUtf8 text) () n =
      printed straight (encodeUtf8 text) () (fileLines text).length := by
  induction h with
  | refl => rfl
  | @step n hn ih =>
    have hend : nextLine (encodeUtf8 text) (lineOffset text n) = none := by
      rw [nextLine_lineOffset, List.getElem?_eq_none hn, Option.map_none]
    rw [printed_succ, Printed.next_of_none, ih]
    rw [Printed.line, hposition, hend, Option.bind_none]

/-- The abstract print of a text whose lines do not change the position. -/
theorem printed_straight (n : Nat) :
    (printed straight (encodeUtf8 text) () n).position = lineOffset text n ∧
      (printed straight (encodeUtf8 text) () n).log = (numberedLines text).take n := by
  induction n with
  | zero => exact ⟨rfl, rfl⟩
  | succ n ih =>
    obtain ⟨hposition, hlog⟩ := ih
    have hnext := nextLine_lineOffset text n
    have hnumbered : (numberedLines text)[n]? =
        ((fileLines text)[n]?).map fun line => (lineOffset text n, String.ofList line) :=
      List.getElem?_mapIdx
    rw [← hposition] at hnext
    rw [printed_succ]
    cases hline : (fileLines text)[n]? with
    | none =>
      rw [hline, Option.map_none] at hnext hnumbered
      have hle : (fileLines text).length ≤ n := List.getElem?_eq_none_iff.mp hline
      rw [Printed.next_of_none (by rw [Printed.line, hnext, Option.bind_none]), hposition, hlog]
      constructor
      · rw [lineOffset, lineOffset, List.take_of_length_le hle, List.take_of_length_le (by omega)]
      · rw [List.take_add_one, hnumbered, Option.toList_none, List.append_nil]
    | some line =>
      rw [hline, Option.map_some] at hnext hnumbered
      rw [Printed.next_eq (Printed.line_eq hnext (decodeUtf8_encodeUtf8 line))]
      constructor
      · rw [lineOffset_succ text hline, ← hposition]
        rfl
      · rw [List.take_add_one, hnumbered, Option.toList_some, ← hposition, ← hlog]

end Text

/-! ## Pauses -/

/-- Whatever pauses are requested, a print of UTF-8 text that ends with a newline has at
every time dispatched its first lines, each once and in order, with `file_position` at
the next of them, and all of them when it is complete.  If pauses are requested by lines
only, and the g-code lock is not held for ever, the print completes. -/
theorem sdPrint_lines {h : Host σ} {text : List Char}
    (hterm : text = [] ∨ text.getLast? = some '\n')
    (hruns : h.Runs (encodeUtf8 text) straight fun _ => ()) (host : σ) :
    (∀ k, ∃ n ≤ (fileLines text).length,
      let p := (step h)^[k] (loaded (encodeUtf8 text) host)
      p.log = (numberedLines text).take n ∧
        p.world.sd.filePosition = lineOffset text n ∧
        (∀ w log, p ≠ .crashed w log) ∧
        (p.Complete → n = (fileLines text).length ∧
          p.log.flatMap (fun entry => entry.2.toList ++ ['\n']) = text)) ∧
    (h.Prompt → ∃ k, ((step h)^[k] (loaded (encodeUtf8 text) host)).Complete) := by
  have hposition := fun n => (printed_straight text n).1
  have hlog := fun n => (printed_straight text n).2
  have hlast : ∀ n, nextLine (encodeUtf8 text) (lineOffset text n) = none →
      (fileLines text).length ≤ n := by
    intro n hend
    rw [nextLine_lineOffset, Option.map_eq_none_iff] at hend
    exact List.getElem?_eq_none_iff.mp hend
  have hcont : ∀ n, Continues h (encodeUtf8 text) straight (fun _ => ())
      (printed straight (encodeUtf8 text) () n) := by
    intro n line str hline
    rw [Printed.next_eq hline]
    exact .inl rfl
  constructor
  · intro k
    -- the abstract print stops at the last line
    obtain ⟨n, hn, hstands, hgo⟩ : ∃ n ≤ (fileLines text).length,
        Stands (encodeUtf8 text) (fun _ => ()) (printed straight (encodeUtf8 text) () n)
          ((step h)^[k] (loaded (encodeUtf8 text) host)) ∧
        GoesOn (encodeUtf8 text) ((step h)^[k] (loaded (encodeUtf8 text) host)) := by
      obtain ⟨n, hstands, hgo⟩ := exists_stands hruns host k
      rcases Nat.le_total n (fileLines text).length with hle | hle
      · exact ⟨n, hle, hstands, hgo hcont⟩
      · rw [printed_straight_last text hle hposition] at hstands
        exact ⟨_, Nat.le_refl _, hstands, hgo hcont⟩
    refine ⟨n, hn, hstands.log_eq.trans (hlog n), ?_, ?_, ?_⟩
    · rw [← hposition n]
      exact hstands.position_eq hgo
    · intro w log hcrash
      rw [hcrash] at hgo
      exact hgo
    · intro hcomplete
      have hend := hstands.nextLine_of_complete hcomplete
      rw [hposition] at hend
      have hall : n = (fileLines text).length := Nat.le_antisymm hn (hlast n hend)
      refine ⟨hall, ?_⟩
      rw [hstands.log_eq, hlog, hall, ← length_numberedLines, List.take_length]
      exact flatMap_numberedLines text hterm
  · intro hprompt
    obtain ⟨p, ⟨k, rfl⟩, hstands, hgo⟩ :=
      leads_printed hruns hprompt host (n := (fileLines text).length) fun m _ => hcont m
    obtain ⟨w, after, ⟨m, hdone⟩, hstands'⟩ := hstands.leads_complete hruns.toLeaves hprompt hgo (by
      rw [hposition, nextLine_lineOffset, List.getElem?_eq_none (Nat.le_refl _), Option.map_none])
    refine ⟨m + k, ?_⟩
    rw [Function.iterate_add_apply, hdone]
    cases hstands' with
    | complete _ hstate _ _ => exact hstate

/-- A print that is paused during each of its lines. -/
theorem sdPrint_lines_paused :
    ∃ k, ((step (Host.ofCommands straight fun _ _ => true))^[k]
        (loaded (encodeUtf8 "G28\nG1 X1\n".toList) ())).log = [(0, "G28"), (4, "G1 X1")] := by
  have hlines := sdPrint_lines (h := Host.ofCommands straight fun _ _ => true) (.inr (by decide))
    (Host.runs_ofCommands straight _ (encodeUtf8 "G28\nG1 X1\n".toList)) ()
  obtain ⟨k, hk⟩ := hlines.2 (Host.prompt_ofCommands _ _)
  obtain ⟨n, -, hlog, -, -, hdone⟩ := hlines.1 k
  refine ⟨k, ?_⟩
  rw [hlog, (hdone hk).1]
  decide

end FlsunT1.Klippy
