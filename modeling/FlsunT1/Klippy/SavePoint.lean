/-
  Klippy/SavePoint.lean --- the point at which a print is saved
  (klippy/extras/gcode_move.py, power_loss_recover.py and virtual_sdcard.py).

  `cmd_G1` runs `F103` in the middle of a line: X, Y and Z are those behind the line already,
  E is the one before it, and the position in the file is the start of the line.  So the line is
  run once more after a power loss.  That is harmless unless the line moves relative to the
  place where it starts, or a `G92` has shifted the coordinates.
-/
import Mathlib.Tactic.LinearCombination
import FlsunT1.Klippy.PowerLossRecover
import FlsunT1.Klippy.SdLoop

set_option autoImplicit false

namespace FlsunT1.Klippy

open Library GCodeMove

variable {K : Type} [Field K] [LinearOrder K]

/-! ## Files of moves -/

/-- The commands of a file of moves; a comment has an empty one. -/
def moveNames : List String := ["G0", "G1", "G90", "G91", "M82", "M83", "G92", ""]

/-- A file of moves.  What follows its last line break is never run. -/
structure MoveFile where
  lines : List Text
  rest : Text
  lines_plain : ∀ l ∈ lines, '\n' ∉ l
  rest_plain : '\n' ∉ rest
  moves : ∀ l ∈ lines, (processLine (String.ofList l)).1 ∈ moveNames

def MoveFile.data (file : MoveFile) : Bytes :=
  encodeUtf8 (joinLines '\n' file.lines ++ file.rest)

/-- The size of some lines. -/
def sizeOfLines (lines : List Text) : Nat := (lines.map lineSize).sum

/-- The lines of a file from a position on. -/
def linesFrom (data : Bytes) (position : Nat) : Option (List Text) :=
  (linesOf newline (data.drop position)).mapM fun line => (decodeUtf8 line).map String.toList

/-- What the handler of a line reads. -/
inductive FileCommand (K : Type)
  | move (params : MoveParams K)
  | coord (absolute : Bool)
  | extrude (absolute : Bool)
  | setBase (offsets : Fin 4 → Option K)
  | nothing

/-- The handlers read their parameters. -/
def readLine (num : Numerals K) (line : Text) : Except String (FileCommand K) :=
  let (name, gcmd) := processLine (String.ofList line)
  match name with
  | "G0" | "G1" => (readMove num gcmd).map .move
  | "G90" => .ok (.coord true)
  | "G91" => .ok (.coord false)
  | "M82" => .ok (.extrude true)
  | "M83" => .ok (.extrude false)
  | "G92" => (axesParam num gcmd "").map .setBase
  | _ => .ok .nothing

/-- What a line meets in the rest of the program. -/
structure Around where
  workMode : Int
  status : PrintStatus

/-- What a line does to the module. -/
def FileCommand.run (cfg : PrinterConfig K) (around : Around) (g : GCodeMove K) :
    FileCommand K → GCodeMove K
  | .move params => (g.moveTo cfg around.workMode around.status params).1
  | .coord absolute => g.setAbsoluteCoord absolute
  | .extrude absolute => g.setAbsoluteExtrude absolute
  | .setBase offsets => g.setBase offsets
  | .nothing => g

/-- A line of the file. -/
def printLine (cfg : PrinterConfig K) (num : Numerals K) (around : Around) (g : GCodeMove K)
    (line : Text) : Except String (GCodeMove K) :=
  (readLine num line).map (·.run cfg around g)

/-- Lines of the file; each meets what belongs to the number of lines behind it. -/
def printLines (cfg : PrinterConfig K) (num : Numerals K) (around : Nat → Around)
    (g : GCodeMove K) : List Text → Except String (GCodeMove K)
  | [] => .ok g
  | line :: lines => do
    let g ← printLine cfg num (around lines.length) g line
    printLines cfg num around g lines

/-- Where each line ends, with what it extrudes in the place of E, up to a line that fails. -/
def endPositions (cfg : PrinterConfig K) (num : Numerals K) (around : Nat → Around)
    (g : GCodeMove K) : List Text → List (Position K)
  | [] => []
  | line :: lines =>
    match printLine cfg num (around lines.length) g line with
    | .error _ => []
    | .ok t =>
      ![t.lastPosition 0, t.lastPosition 1, t.lastPosition 2,
        t.lastPosition 3 - g.lastPosition 3] :: endPositions cfg num around t lines

/-- The X, Y and Z of end positions. -/
def xyz (p : Position K) : K × K × K := (p 0, p 1, p 2)

/-- The filament that lines extrude. -/
def totalExtruded (ends : List (Position K)) : K := (ends.map (· 3)).sum

/-! ## Saving and going on -/

/-- The module while `F103` runs: X, Y and Z are those of the move, E is not. -/
def GCodeMove.atF103 (g : GCodeMove K) (params : MoveParams K) : GCodeMove K :=
  { g with lastPosition := Function.update (g.target params) 3 (g.lastPosition 3) }

/-- The variables after a move that runs `F103`, which starts at a position of the file. -/
def savedByMove (around : Around) (printer : Printer K) (position : Nat) (g : GCodeMove K)
    (params : MoveParams K) (allVariables : Dict String (Value K)) :
    Option (Dict String (Value K)) :=
  match (notePowerLoss { g with lastPosition := g.target params } around.status
      (params.axes 2).isSome).2 with
  | [] => none
  | _ :: _ => some (cmdF103 { printer with
      gcodeMove := g.atF103 params, filePosition := position, isPrinting := true } allVariables)

/-- A printer that was started again and homed, at the saved positions and in the saved modes;
the commands are those of `F102`, without its rounding. -/
def resumedAt (cfg : PrinterConfig K) (around : Around) (homePosition : Position K)
    (v : Variables K) : GCodeMove K :=
  let g := ((GCodeMove.init 0).setAbsoluteExtrude (v.absoluteExtrude.getD true)).home homePosition
  let g := g.setBase ![none, none, none, some (v.ePos.getD 0)]
  let g := (g.moveTo cfg around.workMode around.status
    ⟨![some (v.xPos.getD 0), some (v.yPos.getD 0), some (v.zPos.getD 0), none], none⟩).1
  g.setAbsoluteCoord (v.absoluteCoordinates.getD true)

/-- `int(variables.get('file_position'))` -/
def savedPosition [FloorRing K] (vars : Dict String (Value K)) : Nat :=
  (truncate (((vars.get "file_position").bind Value.number?).getD 0)).toNat

/-- The print goes on as it would have gone on from the beginning of the line: from the saved
position of the file, at the saved positions and in the saved modes, the lines end where they
would have ended and extrude as much filament. -/
def PrintResumes [FloorRing K] (cfg : PrinterConfig K) (num : Numerals K) (file : MoveFile)
    (around around' : Nat → Around) (homePosition : Position K) (vars : Dict String (Value K))
    (g : GCodeMove K) (lines : List Text) : Prop :=
  ∃ lines', linesFrom file.data (savedPosition vars) = some lines' ∧
    let r := resumedAt cfg (around' lines'.length) homePosition (readVariables vars)
    (endPositions cfg num around' r lines').map xyz =
        (endPositions cfg num around g lines).map xyz ∧
      totalExtruded (endPositions cfg num around' r lines') =
        totalExtruded (endPositions cfg num around g lines)

instance [FloorRing K] (cfg : PrinterConfig K) (num : Numerals K) (file : MoveFile)
    (around around' : Nat → Around) (homePosition : Position K) (vars : Dict String (Value K))
    (g : GCodeMove K) (lines : List Text) :
    Decidable (PrintResumes cfg num file around around' homePosition vars g lines) :=
  match h : linesFrom file.data (savedPosition vars) with
  | none => .isFalse fun ⟨_, hlines, _⟩ => Option.some_ne_none _ (hlines.symm.trans h)
  | some lines' =>
    let r := resumedAt cfg (around' lines'.length) homePosition (readVariables vars)
    decidable_of_iff
      ((endPositions cfg num around' r lines').map xyz =
          (endPositions cfg num around g lines).map xyz ∧
        totalExtruded (endPositions cfg num around' r lines') =
          totalExtruded (endPositions cfg num around g lines))
      ⟨fun hresumes => ⟨lines', h, hresumes⟩, fun ⟨_, hlines, hresumes⟩ =>
        by rw [← Option.some.inj (h.symm.trans hlines)] at hresumes; exact hresumes⟩

/-! ## The condition -/

/-- `G92` sets the base of an axis. -/
def SetsBase (offsets : Fin 4 → Option K) (i : Fin 4) : Prop :=
  offsets i ≠ none ∨ (offsets 0 = none ∧ offsets 1 = none ∧ offsets 2 = none ∧ offsets 3 = none)

/-- No line moves an axis in absolute coordinates before its base is set. -/
def Sheltered (num : Numerals K) (i : Fin 4) : Bool → List Text → Prop
  | _, [] => True
  | absolute, line :: lines =>
    match readLine num line with
    | .error _ => True
    | .ok (.move params) =>
      (absolute = true → params.axes i = none) ∧ Sheltered num i absolute lines
    | .ok (.coord absolute) => Sheltered num i absolute lines
    | .ok (.extrude _) => Sheltered num i absolute lines
    | .ok (.setBase offsets) => SetsBase offsets i ∨ Sheltered num i absolute lines
    | .ok .nothing => Sheltered num i absolute lines

/-- How far the line moves an axis again when it is run again. -/
def movedAgain (g : GCodeMove K) (params : MoveParams K) (i : Fin 4) : K :=
  if g.absoluteCoord then 0 else (params.axes i).getD 0

/-- The line moves no axis when it is run again, and no axis is shifted.  A shift is harmless
where it makes up for such a move and comes to an end before it is used. -/
def Continuable (num : Numerals K) (g : GCodeMove K) (params : MoveParams K)
    (lines : List Text) : Prop :=
  ∀ i : Fin 4, i ≠ 3 → movedAgain g params i = g.basePosition i ∧
    (g.basePosition i = 0 ∨ Sheltered num i g.absoluteCoord lines)

/-! ## The lines of the file -/

theorem encodeUtf8_joinLines_length (lines : List Text) :
    (encodeUtf8 (joinLines '\n' lines)).length = sizeOfLines lines := by
  induction lines with
  | nil => rfl
  | cons line lines ih =>
    rw [encodeUtf8_lines, List.length_append, List.length_cons, ih, sizeOfLines, sizeOfLines,
      List.map_cons, List.sum_cons, lineSize]
    omega

theorem decode_lines (lines : List Text) :
    (lines.map encodeUtf8).mapM (fun line => (decodeUtf8 line).map String.toList) = some lines := by
  induction lines with
  | nil => rfl
  | cons line lines ih =>
    rw [List.map_cons, List.mapM_cons, ih, decodeUtf8_encodeUtf8, Option.map_some,
      String.toList_ofList]
    rfl

theorem linesFrom_sizeOfLines (file : MoveFile) {before lines : List Text}
    (hlines : file.lines = before ++ lines) :
    linesFrom file.data (sizeOfLines before) = some lines := by
  have hdata : file.data = encodeUtf8 (joinLines '\n' before) ++
      encodeUtf8 (joinLines '\n' lines ++ file.rest) := by
    rw [MoveFile.data, hlines, joinLines_append, List.append_assoc, encodeUtf8_append]
  have hplain : ∀ l ∈ lines, '\n' ∉ l := fun l hl =>
    file.lines_plain l (hlines ▸ List.mem_append_right _ hl)
  have hnewline : '\n'.toNat = newline.toNat := rfl
  rw [linesFrom, hdata, ← encodeUtf8_joinLines_length, List.drop_left,
    linesOf_encodeUtf8 newline_lt hnewline, linesOf_joinLines hplain,
    linesOf_eq_nil file.rest_plain, List.append_nil, decode_lines]

/-! ## The extruder -/

/-- Two printers in the same modes that are equally far from the base of the extruder. -/
structure SameExtruder (g r : GCodeMove K) : Prop where
  absoluteCoord : r.absoluteCoord = g.absoluteCoord
  absoluteExtrude : r.absoluteExtrude = g.absoluteExtrude
  extrudeFactor : r.extrudeFactor = g.extrudeFactor
  offset : r.lastPosition 3 - r.basePosition 3 = g.lastPosition 3 - g.basePosition 3

variable {cfg : PrinterConfig K} {num : Numerals K} {g r : GCodeMove K}

/-- They extrude the same. -/
theorem SameExtruder.run (cfg : PrinterConfig K) (h : SameExtruder g r) (command : FileCommand K) (a a' : Around) :
    SameExtruder (command.run cfg a g) (command.run cfg a' r) ∧
      (command.run cfg a' r).lastPosition 3 - r.lastPosition 3 =
        (command.run cfg a g).lastPosition 3 - g.lastPosition 3 := by
  cases command with
  | move params =>
    have hg := g.moveTo_sameCoordinates cfg a.workMode a.status params
    have hr := r.moveTo_sameCoordinates cfg a'.workMode a'.status params
    obtain ⟨hglast, -⟩ := g.moveTo_frame cfg a.workMode a.status params
    obtain ⟨hrlast, -⟩ := r.moveTo_frame cfg a'.workMode a'.status params
    have htarget : r.target params 3 - r.lastPosition 3 =
        g.target params 3 - g.lastPosition 3 := by
      show axisTarget _ _ _ _ - _ = axisTarget _ _ _ _ - _
      rw [h.absoluteCoord, h.absoluteExtrude, h.extrudeFactor]
      have hoffset := h.offset
      cases (params.axes 3).map (· * g.extrudeFactor) with
      | none =>
        show r.lastPosition 3 - _ = g.lastPosition 3 - _
        rw [sub_self, sub_self]
      | some v =>
        rw [axisTarget, axisTarget]
        split
        · rw [add_sub_cancel_left, add_sub_cancel_left]
        · linear_combination -hoffset
    rw [FileCommand.run, FileCommand.run]
    refine ⟨⟨?_, ?_, ?_, ?_⟩, ?_⟩
    · rw [hr.absoluteCoord, hg.absoluteCoord, h.absoluteCoord]
    · rw [hr.absoluteExtrude, hg.absoluteExtrude, h.absoluteExtrude]
    · rw [hr.extrudeFactor, hg.extrudeFactor, h.extrudeFactor]
    · rw [hr.basePosition, hg.basePosition, hrlast, hglast]
      linear_combination htarget + h.offset
    · rw [hrlast, hglast, htarget]
  | coord absolute => exact ⟨⟨rfl, h.2, h.3, h.4⟩, (sub_self _).trans (sub_self _).symm⟩
  | extrude absolute => exact ⟨⟨h.1, rfl, h.3, h.4⟩, (sub_self _).trans (sub_self _).symm⟩
  | nothing => exact ⟨h, (sub_self _).trans (sub_self _).symm⟩
  | setBase offsets =>
    rw [FileCommand.run, FileCommand.run, setBase, setBase]
    split
    · exact ⟨⟨h.1, h.2, h.3, (sub_self _).trans (sub_self _).symm⟩,
        (sub_self _).trans (sub_self _).symm⟩
    · refine ⟨⟨h.1, h.2, h.3, ?_⟩, (sub_self _).trans (sub_self _).symm⟩
      dsimp only
      cases offsets 3 with
      | none => exact h.offset
      | some offset =>
        rw [sub_sub_cancel, sub_sub_cancel, if_pos rfl, if_pos rfl, h.extrudeFactor]

theorem SameExtruder.extruded (h : SameExtruder g r) (around around' : Nat → Around)
    (lines : List Text) :
    (endPositions cfg num around' r lines).map (· 3) =
      (endPositions cfg num around g lines).map (· 3) := by
  induction lines generalizing g r with
  | nil => rfl
  | cons line lines ih =>
    rw [endPositions, endPositions, printLine, printLine]
    cases readLine num line with
    | error e => rfl
    | ok command =>
      obtain ⟨hrun, hlast⟩ := h.run cfg command (around lines.length) (around' lines.length)
      exact List.cons_eq_cons.mpr ⟨hlast, ih hrun⟩

/-! ## X, Y and Z -/

omit [LinearOrder K] in
theorem target_xyz (g : GCodeMove K) (params : MoveParams K) {i : Fin 4} (hi : i ≠ 3) :
    g.target params i =
      axisTarget (!g.absoluteCoord) (g.basePosition i) (g.lastPosition i) (params.axes i) :=
  forall_xyz hi rfl rfl rfl

omit [Field K] [LinearOrder K] in
theorem xyz_eq_iff {p q : Position K} : xyz p = xyz q ↔ ∀ i : Fin 4, i ≠ 3 → p i = q i := by
  rw [xyz, xyz, Prod.mk.injEq, Prod.mk.injEq]
  constructor
  · rintro ⟨h0, h1, h2⟩ i hi
    exact forall_xyz hi h0 h1 h2
  · intro h
    exact ⟨h 0 (by decide), h 1 (by decide), h 2 (by decide)⟩

omit [LinearOrder K] in
theorem setBase_xyz (g : GCodeMove K) (offsets : Fin 4 → Option K) {i : Fin 4} (hi : i ≠ 3) :
    (¬SetsBase offsets i → (g.setBase offsets).basePosition i = g.basePosition i) ∧
      (SetsBase offsets i → ∀ r : GCodeMove K, g.lastPosition i = r.lastPosition i →
        (g.setBase offsets).basePosition i = (r.setBase offsets).basePosition i) := by
  rw [SetsBase]
  constructor
  · intro h
    obtain ⟨hnone, hsome⟩ := not_or.mp h
    rw [setBase, if_neg hsome]
    dsimp only
    rw [not_ne_iff.mp hnone]
  · intro h r hlast
    rw [setBase, setBase]
    split
    · exact hlast
    · rename_i hsome
      obtain ⟨offset, hoffset⟩ := Option.ne_none_iff_exists'.mp (h.resolve_right hsome)
      dsimp only
      rw [hoffset, hlast]
      dsimp only
      rw [if_neg hi, if_neg hi]

omit [LinearOrder K] in
theorem setBase_frame (g : GCodeMove K) (offsets : Fin 4 → Option K) :
    (g.setBase offsets).lastPosition = g.lastPosition ∧
      (g.setBase offsets).absoluteCoord = g.absoluteCoord ∧
      (g.setBase offsets).extrudeFactor = g.extrudeFactor := by
  rw [setBase]
  split
  · exact ⟨rfl, rfl, rfl⟩
  · exact ⟨rfl, rfl, rfl⟩

omit [LinearOrder K] in
/-- A move ends at the same place from two states at the same place, if and only if it does not
use a base that differs. -/
theorem target_xyz_iff (hcoord : r.absoluteCoord = g.absoluteCoord) {i : Fin 4} (hi : i ≠ 3)
    (hlast : r.lastPosition i = g.lastPosition i) (params : MoveParams K) :
    r.target params i = g.target params i ↔
      r.basePosition i = g.basePosition i ∨ (g.absoluteCoord = true → params.axes i = none) := by
  rw [target_xyz r params hi, target_xyz g params hi, hcoord, hlast]
  cases params.axes i with
  | none => exact iff_of_true rfl (Or.inr fun _ => rfl)
  | some v =>
    cases g.absoluteCoord with
    | false => exact iff_of_true rfl (Or.inr fun h => absurd h Bool.false_ne_true)
    | true =>
      show v + r.basePosition i = v + g.basePosition i ↔ _
      rw [add_right_inj, or_iff_left (fun h => Option.some_ne_none v (h rfl))]

/-- Lines end at the same places from two states at the same place, if and only if the bases are
the same or are not used. -/
theorem endPositions_xyz_iff (cfg : PrinterConfig K) (num : Numerals K)
    (hextruder : SameExtruder g r)
    (hlast : ∀ i : Fin 4, i ≠ 3 → r.lastPosition i = g.lastPosition i)
    (around around' : Nat → Around) (lines : List Text) :
    (endPositions cfg num around' r lines).map xyz = (endPositions cfg num around g lines).map xyz ↔
      ∀ i : Fin 4, i ≠ 3 →
        r.basePosition i = g.basePosition i ∨ Sheltered num i g.absoluteCoord lines := by
  induction lines generalizing g r with
  | nil => exact iff_of_true rfl fun _ _ => Or.inr trivial
  | cons line lines ih =>
    rw [endPositions, endPositions, printLine, printLine]
    simp only [Sheltered]
    cases readLine num line with
    | error e => exact iff_of_true rfl fun _ _ => Or.inr trivial
    | ok command =>
      obtain ⟨hrun, -⟩ := hextruder.run cfg command (around lines.length)
        (around' lines.length)
      show xyz (command.run cfg (around' lines.length) r).lastPosition :: _ =
        xyz (command.run cfg (around lines.length) g).lastPosition :: _ ↔ _
      rw [List.cons_eq_cons, xyz_eq_iff]
      cases command with
      | coord absolute => exact (and_iff_right hlast).trans (ih hrun hlast)
      | extrude absolute => exact (and_iff_right hlast).trans (ih hrun hlast)
      | nothing => exact (and_iff_right hlast).trans (ih hrun hlast)
      | setBase offsets =>
        obtain ⟨hglast, hgcoord, -⟩ := setBase_frame g offsets
        obtain ⟨hrlast, -, -⟩ := setBase_frame r offsets
        have hsame : ∀ i : Fin 4, i ≠ 3 →
            (r.setBase offsets).lastPosition i = (g.setBase offsets).lastPosition i := by
          rw [hglast, hrlast]
          exact hlast
        refine (and_iff_right hsame).trans ((ih hrun hsame).trans ?_)
        refine forall_congr' fun i => forall_congr' fun hi => ?_
        obtain ⟨hgbase, -⟩ := setBase_xyz g offsets hi
        obtain ⟨hrbase, hset⟩ := setBase_xyz r offsets hi
        rw [FileCommand.run, FileCommand.run, hgcoord]
        by_cases hsets : SetsBase offsets i
        · exact iff_of_true (Or.inl (hset hsets g (hlast i hi))) (Or.inr (Or.inl hsets))
        · rw [hgbase hsets, hrbase hsets]
          exact or_congr_right (or_iff_right hsets).symm
      | move params =>
        obtain ⟨hglast, -⟩ := g.moveTo_frame cfg (around lines.length).workMode
          (around lines.length).status params
        obtain ⟨hrlast, -⟩ := r.moveTo_frame cfg (around' lines.length).workMode
          (around' lines.length).status params
        have hg := g.moveTo_sameCoordinates cfg (around lines.length).workMode
          (around lines.length).status params
        have hr := r.moveTo_sameCoordinates cfg (around' lines.length).workMode
          (around' lines.length).status params
        have htarget (i : Fin 4) (hi : i ≠ 3) :=
          target_xyz_iff hextruder.absoluteCoord hi (hlast i hi) params
        have htail (h : ∀ i : Fin 4, i ≠ 3 → r.target params i = g.target params i) :=
          ih hrun (by rw [FileCommand.run, FileCommand.run, hglast, hrlast]; exact h)
        simp only [FileCommand.run, hglast, hrlast, hg.basePosition, hr.basePosition,
          hg.absoluteCoord] at htail ⊢
        constructor
        · rintro ⟨hheads, htails⟩ i hi
          have hshelter := (htail hheads).mp htails i hi
          rw [or_and_left]
          exact ⟨(htarget i hi).mp (hheads i hi), hshelter⟩
        · intro h
          have hheads : ∀ i : Fin 4, i ≠ 3 → r.target params i = g.target params i :=
            fun i hi => (htarget i hi).mpr ((h i hi).imp_right And.left)
          exact ⟨hheads, (htail hheads).mpr fun i hi => (h i hi).imp_right And.right⟩

/-! ## Going on -/

theorem printLines_extrudeFactor {around : Nat → Around} {lines : List Text} {t : GCodeMove K}
    (h : printLines cfg num around g lines = .ok t) : t.extrudeFactor = g.extrudeFactor := by
  induction lines generalizing g with
  | nil => rw [Except.ok.inj h]
  | cons line lines ih =>
    obtain ⟨s, hline, h⟩ := bind_eq_ok.mp h
    rw [ih h]
    rw [printLine] at hline
    cases hread : readLine num line with
    | error e =>
      rw [hread] at hline
      cases hline
    | ok command =>
      rw [hread] at hline
      rw [← Except.ok.inj hline]
      cases command with
      | move params => exact (g.moveTo_sameCoordinates _ _ _ params).extrudeFactor
      | setBase offsets => exact (setBase_frame g offsets).2.2
      | coord absolute | extrude absolute | nothing => rfl

omit [LinearOrder K] in
/-- The coordinates of a printer that was started again and homed, at a position of the
extruder. -/
theorem restarted_coordinates (absoluteExtrude : Bool) (homePosition : Position K) (e : K) :
    let g := (((GCodeMove.init 0).setAbsoluteExtrude absoluteExtrude).home homePosition).setBase
      ![none, none, none, some e]
    (g.absoluteCoord = true ∧ g.absoluteExtrude = absoluteExtrude ∧ g.extrudeFactor = 1) ∧
      g.gcodePosition 3 = e ∧ ∀ i : Fin 4, i ≠ 3 → g.basePosition i = 0 := by
  intro g
  obtain ⟨hcoord, hextrude, -, hfactor⟩ :=
    ((GCodeMove.init (0 : Position K)).setAbsoluteExtrude absoluteExtrude).home_modes homePosition
  have hbase (i : Fin 4) (hi : i ≠ 3) : (((GCodeMove.init (0 : Position K)).setAbsoluteExtrude
      absoluteExtrude).home homePosition).basePosition i = 0 := if_neg hi
  obtain ⟨hcoord', hextrude', -, he⟩ := setBase_e
    (((GCodeMove.init (0 : Position K)).setAbsoluteExtrude absoluteExtrude).home homePosition) e
    (by rw [hfactor]; exact one_ne_zero)
  refine ⟨⟨hcoord'.trans hcoord, hextrude'.trans hextrude,
    (setBase_frame _ _).2.2.trans hfactor⟩, he, fun i hi => ?_⟩
  rw [← hbase i hi]
  refine (setBase_xyz _ _ hi).1 (not_or.mpr ⟨?_, fun h => Option.some_ne_none e h.2.2.2⟩)
  refine forall_xyz hi ?_ ?_ ?_
  · exact not_ne_iff.mpr rfl
  · exact not_ne_iff.mpr rfl
  · exact not_ne_iff.mpr rfl

/-- The printer that goes on is where the saved one was, without a shift. -/
theorem resumedAt_captured (cfg : PrinterConfig K) (around : Around) (homePosition : Position K)
    (p : Printer K) :
    let r := resumedAt cfg around homePosition (captured p)
    (r.absoluteCoord = p.gcodeMove.absoluteCoord ∧
      r.absoluteExtrude = p.gcodeMove.absoluteExtrude ∧ r.extrudeFactor = 1) ∧
    r.lastPosition 3 - r.basePosition 3 = p.gcodeMove.gcodePosition 3 ∧
    ∀ i : Fin 4, i ≠ 3 → r.basePosition i = 0 ∧ r.lastPosition i = p.gcodeMove.gcodePosition i := by
  intro r
  obtain ⟨⟨hcoord, hextrude, hfactor⟩, he, hbase⟩ := restarted_coordinates
    p.gcodeMove.absoluteExtrude homePosition (p.gcodeMove.gcodePosition 3)
  have hmove := moveTo_sameCoordinates cfg around.workMode around.status
    ⟨![some (p.gcodeMove.gcodePosition 0), some (p.gcodeMove.gcodePosition 1),
      some (p.gcodeMove.gcodePosition 2), none], none⟩ ((((GCodeMove.init 0).setAbsoluteExtrude
        p.gcodeMove.absoluteExtrude).home homePosition).setBase
          ![none, none, none, some (p.gcodeMove.gcodePosition 3)])
  have hrfactor : r.extrudeFactor = 1 := hmove.extrudeFactor.trans hfactor
  have hrbase (i : Fin 4) (hi : i ≠ 3) : r.basePosition i = 0 :=
    (congrFun hmove.basePosition i).trans (hbase i hi)
  have hre : r.gcodePosition 3 = p.gcodeMove.gcodePosition 3 :=
    (gcodePosition_moveTo_e cfg around.workMode around.status _ _ rfl).trans he
  refine ⟨⟨rfl, hmove.absoluteExtrude.trans hextrude, hrfactor⟩, ?_, fun i hi =>
    ⟨hrbase i hi, ?_⟩⟩
  · rw [← hre, gcodePosition, if_pos rfl, hrfactor, div_one]
  · have hi' := gcodePosition_moveTo cfg around.workMode around.status
      ⟨![some (p.gcodeMove.gcodePosition 0), some (p.gcodeMove.gcodePosition 1),
        some (p.gcodeMove.gcodePosition 2), none], none⟩ hcoord hi
    have hri : r.gcodePosition i = r.lastPosition i := by
      rw [gcodePosition, if_neg hi, hrbase i hi, sub_zero]
    rw [← hri]
    refine hi'.trans ?_
    exact forall_xyz hi rfl rfl rfl

omit [LinearOrder K] in
/-- The line itself ends at the same place, if and only if what it moves again is the shift. -/
theorem target_resumed_iff (params : MoveParams K) (hcoord : r.absoluteCoord = g.absoluteCoord)
    {i : Fin 4} (hi : i ≠ 3) (hbase : r.basePosition i = 0)
    (hlast : r.lastPosition i = g.target params i - g.basePosition i) :
    r.target params i = g.target params i ↔ movedAgain g params i = g.basePosition i := by
  rw [target_xyz g params hi] at hlast ⊢
  rw [target_xyz r params hi, hcoord, hbase, hlast, movedAgain]
  cases params.axes i with
  | none =>
    show g.lastPosition i - g.basePosition i = g.lastPosition i ↔ _
    rw [sub_eq_self, Option.getD_none, ite_self]
    exact eq_comm
  | some v =>
    cases g.absoluteCoord with
    | true =>
      show v + 0 = v + g.basePosition i ↔ 0 = _
      exact add_right_inj v
    | false =>
      show g.lastPosition i + v - g.basePosition i + v = g.lastPosition i + v ↔ v = _
      constructor
      · intro h
        linear_combination h
      · intro h
        linear_combination h

section Resume

variable [IsStrictOrderedRing K] [FloorRing K]

theorem savedPosition_cmdF103 {p : Printer K} (hprinting : p.isPrinting = true)
    (allVariables : Dict String (Value K)) :
    savedPosition (cmdF103 p allVariables) = p.filePosition := by
  have hget : (cmdF103 p allVariables).get "file_position" =
      some (.number (p.filePosition : K)) := by
    rw [cmdF103, if_pos hprinting]
    simp only [Dict.get_update, newvars, Dict.get_setAll, List.reverse_cons,
      List.reverse_nil, List.nil_append, List.cons_append, List.lookup_cons]
    simp
  rw [savedPosition, hget, Option.bind_some, Value.number?, Option.getD_some,
    ← Int.cast_natCast, truncate_intCast, Int.toNat_natCast]

omit [IsStrictOrderedRing K] [FloorRing K] in
theorem eq_of_savedByMove {around : Around} {printer : Printer K} {position : Nat}
    {params : MoveParams K} {allVariables vars : Dict String (Value K)}
    (h : savedByMove around printer position g params allVariables = some vars) :
    ∃ p : Printer K, p.gcodeMove = g.atF103 params ∧ p.isPrinting = true ∧
      p.filePosition = position ∧ vars = cmdF103 p allVariables := by
  rw [savedByMove] at h
  split at h
  · cases h
  · exact ⟨_, rfl, rfl, rfl, (Option.some.inj h).symm⟩

/-- **Where a print can go on.**  In every file of moves, and for every line at which `cmd_G1` runs
`F103`, the print goes on from what was saved as it would have gone on from the beginning of the
line, if and only if the line moves no axis when it is run again and no axis is shifted. -/
theorem printResumes_iff (cfg : PrinterConfig K) (num : Numerals K) (file : MoveFile)
    (around around' : Nat → Around) (homePosition : Position K) (printer : Printer K)
    (allVariables : Dict String (Value K)) (before : List Text) (line : Text) (lines : List Text)
    (hlines : file.lines = before ++ line :: lines) {g₀ g : GCodeMove K}
    (hfactor : g₀.extrudeFactor = 1) (hbefore : printLines cfg num around g₀ before = .ok g)
    {params : MoveParams K} (hline : readLine num line = .ok (.move params))
    {vars : Dict String (Value K)}
    (hsave : savedByMove (around lines.length) printer (sizeOfLines before) g params
      allVariables = some vars) :
    PrintResumes cfg num file around around' homePosition vars g (line :: lines) ↔
      Continuable num g params lines := by
  obtain ⟨p, hp, hprinting, hposition, rfl⟩ := eq_of_savedByMove hsave
  have hresumed := resumedAt_captured cfg (around' (line :: lines).length) homePosition p
  generalize hr : resumedAt cfg (around' (line :: lines).length) homePosition (captured p) = r
    at hresumed
  obtain ⟨⟨hcoord, hextrude, hrfactor⟩, he, hxyz⟩ := hresumed
  rw [hp] at hcoord hextrude he hxyz
  have hgfactor : g.extrudeFactor = 1 := (printLines_extrudeFactor hbefore).trans hfactor
  have hextruder : SameExtruder g r := by
    refine ⟨hcoord, hextrude, hrfactor.trans hgfactor.symm, he.trans ?_⟩
    show (Function.update (g.target params) 3 (g.lastPosition 3) 3 - g.basePosition 3) /
      g.extrudeFactor = _
    rw [Function.update_self, hgfactor, div_one]
  have hlast (i : Fin 4) (hi : i ≠ 3) :
      r.lastPosition i = g.target params i - g.basePosition i := by
    rw [(hxyz i hi).2, gcodePosition, if_neg hi]
    show Function.update (g.target params) 3 _ i - g.basePosition i = _
    rw [Function.update_of_ne hi]
  have hlines' : linesFrom file.data (savedPosition (cmdF103 p allVariables)) =
      some (line :: lines) := by
    rw [savedPosition_cmdF103 hprinting, hposition, linesFrom_sizeOfLines file hlines]
  have htotal : totalExtruded (endPositions cfg num around' r (line :: lines)) =
      totalExtruded (endPositions cfg num around g (line :: lines)) :=
    congrArg List.sum (hextruder.extruded around around' (line :: lines))
  have hresumes : PrintResumes cfg num file around around' homePosition (cmdF103 p allVariables) g
      (line :: lines) ↔ (endPositions cfg num around' r (line :: lines)).map xyz =
        (endPositions cfg num around g (line :: lines)).map xyz := by
    rw [PrintResumes, readVariables_cmdF103 hprinting, hlines']
    constructor
    · rintro ⟨lines', hlines', h, -⟩
      rw [← Option.some.inj hlines', hr] at h
      exact h
    · intro h
      exact ⟨_, rfl, by rw [hr]; exact ⟨h, htotal⟩⟩
  rw [hresumes, endPositions, endPositions, printLine, printLine, hline]
  obtain ⟨hrun, -⟩ := hextruder.run cfg (.move params) (around lines.length)
    (around' lines.length)
  obtain ⟨hglast, -⟩ := g.moveTo_frame cfg (around lines.length).workMode
    (around lines.length).status params
  obtain ⟨hrlast, -⟩ := r.moveTo_frame cfg (around' lines.length).workMode
    (around' lines.length).status params
  have hgsame := g.moveTo_sameCoordinates cfg (around lines.length).workMode
    (around lines.length).status params
  have hrsame := r.moveTo_sameCoordinates cfg (around' lines.length).workMode
    (around' lines.length).status params
  show xyz (FileCommand.run cfg (around' lines.length) r (.move params)).lastPosition :: _ =
    xyz (FileCommand.run cfg (around lines.length) g (.move params)).lastPosition :: _ ↔ _
  rw [List.cons_eq_cons, xyz_eq_iff]
  have htarget (i : Fin 4) (hi : i ≠ 3) :=
    target_resumed_iff (g := g) params hcoord hi (hxyz i hi).1 (hlast i hi)
  have htail (h : ∀ i : Fin 4, i ≠ 3 → r.target params i = g.target params i) :=
    endPositions_xyz_iff cfg num hrun
      (by rw [FileCommand.run, FileCommand.run, hglast, hrlast]; exact h) around around' lines
  simp only [FileCommand.run, hglast, hrlast, hgsame.basePosition, hrsame.basePosition,
    hgsame.absoluteCoord] at htail ⊢
  constructor
  · rintro ⟨hheads, htails⟩ i hi
    refine ⟨(htarget i hi).mp (hheads i hi), ((htail hheads).mp htails i hi).imp_left ?_⟩
    rw [(hxyz i hi).1]
    exact Eq.symm
  · intro h
    have hheads : ∀ i : Fin 4, i ≠ 3 → r.target params i = g.target params i :=
      fun i hi => (htarget i hi).mpr (h i hi).1
    refine ⟨hheads, (htail hheads).mpr fun i hi => (h i hi).2.imp_left ?_⟩
    rw [(hxyz i hi).1]
    exact Eq.symm

end Resume

/-! ## A file -/

/-- Printing all the time. -/
def whilePrinting : Nat → Around := fun _ => ⟨0, ⟨true, false⟩⟩

/-- A move up by one layer, behind a line that sets the mode of coordinates. -/
def layerFile (mode : Text) (h : mode ∈ ["G90".toList, "G91".toList]) : MoveFile where
  lines := [mode, "G1 Z1 E1".toList, "G1 X10".toList]
  rest := []
  lines_plain := by revert h; revert mode; decide
  rest_plain := by decide
  moves := by revert h; revert mode; decide

def layerParams : MoveParams ℚ := ⟨![none, none, some 1, some 1], none⟩

theorem readLine_layer :
    readLine printNumerals "G1 Z1 E1".toList = .ok (.move layerParams) := rfl

/-- In absolute coordinates the print goes on. -/
theorem printResumes_iff_absolute :
    ∃ vars, savedByMove (whilePrinting 1) (printAt 1) (sizeOfLines ["G90".toList]) (.init 0)
        layerParams .empty = some vars ∧
      (PrintResumes scaledPrinter printNumerals (layerFile "G90".toList (by decide)) whilePrinting
          whilePrinting 0 vars (.init 0) ["G1 Z1 E1".toList, "G1 X10".toList] ↔
        Continuable printNumerals (.init 0) layerParams ["G1 X10".toList]) := by
  have hbefore : printLines scaledPrinter printNumerals whilePrinting (.init 0) ["G90".toList] =
      .ok (.init 0) := rfl
  obtain ⟨vars, hsave⟩ := Option.isSome_iff_exists.mp
    (show (savedByMove (whilePrinting 1) (printAt 1) (sizeOfLines ["G90".toList]) (.init 0)
      layerParams .empty).isSome by decide +kernel)
  exact ⟨vars, hsave, printResumes_iff scaledPrinter printNumerals
    (layerFile "G90".toList (by decide)) whilePrinting whilePrinting 0 (printAt 1) .empty
    ["G90".toList] "G1 Z1 E1".toList ["G1 X10".toList] rfl rfl hbefore readLine_layer hsave⟩

/-- In relative coordinates the layer is moved up once more. -/
theorem printResumes_relative :
    (layerFile "G91".toList (by decide)).lines =
        ["G91".toList] ++ "G1 Z1 E1".toList :: ["G1 X10".toList] ∧
      (do
        let g ← (printLines scaledPrinter printNumerals whilePrinting (.init 0)
          ["G91".toList]).toOption
        let vars ← savedByMove (whilePrinting 1) (printAt 1) (sizeOfLines ["G91".toList]) g
          layerParams .empty
        return decide (PrintResumes scaledPrinter printNumerals
          (layerFile "G91".toList (by decide)) whilePrinting whilePrinting 0 vars g
            ["G1 Z1 E1".toList, "G1 X10".toList])) = some false := by
  exact ⟨rfl, by decide +kernel⟩

end FlsunT1.Klippy
