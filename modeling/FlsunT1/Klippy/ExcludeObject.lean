/-
  Klippy/ExcludeObject.lean --- cancelling single objects of a print
  (klippy/extras/exclude_object.py).

  The commands change which object is printed and which objects are excluded; the move
  transform drops the moves of an excluded object and shifts the ones after it.  A
  command may raise after it has changed the state, so its outcome has both.
-/
import Mathlib.Data.List.Sort
import Mathlib.Algebra.Order.Field.Basic
import FlsunT1.Klippy.GcodeMove
import FlsunT1.Klippy.VirtualSd

set_option autoImplicit false

namespace FlsunT1.Klippy

/-! ## The state of the module -/

/-- What `_register_transform` creates. -/
structure ExcludeTransform (K : Type) where
  extrusionOffsets : String → Option (Position K)
  maxPositionExtruded : K
  maxPositionExcluded : K
  extruderAdj : K
  initialExtrusionMoves : Nat
  lastPosition : Position K

/-- `class ExcludeObject`; `objects` has the names of the definitions, and
`nextTransform` says that there is one. -/
structure ExcludeObject (K : Type) where
  nextTransform : Bool
  transform : Option (ExcludeTransform K)
  lastPositionExtruded : Position K
  lastPositionExcluded : Position K
  objects : List String
  excludedObjects : List String
  currentObject : Option String
  inExcludedRegion : Bool
  objectEndCount : List (String × Nat)
  excludeEnabled : Bool
  isExcludedObject : Bool

/-- What a handler asks of the rest of the program. -/
inductive ExcludeAction (K : Type)
  | respondInfo (text : String)
  /-- `save_exclude_objects("excluded_objects", ..)` -/
  | saveExcluded (names : List String)
  /-- `save_exclude_objects("objects_enabled", ..)` -/
  | saveEnabled (enabled : Bool)
  /-- The 20 ms before an excluded object. -/
  | pause
  | resetLastPosition
  /-- `next_transform.move` -/
  | move (pos : Position K) (speed : K)

/-- What the module reads of the rest of the program: the tuning tower, the extruder and
the position of the next transform. -/
structure ExcludeContext (K : Type) where
  tuningActive : Bool
  extruder : String
  nextPosition : Position K

/-- The state after a handler, what it asked for, and what it raised. -/
structure ExcludeOutcome (K : Type) where
  state : ExcludeObject K
  actions : List (ExcludeAction K)
  raised : Option Raised

variable {K : Type} [Field K] [LinearOrder K]

namespace ExcludeObject

/-- A handler that returns. -/
def done {K : Type} (o : ExcludeObject K) (actions : List (ExcludeAction K)) :
    ExcludeOutcome K :=
  ⟨o, actions, none⟩

/-- `_reset_state` -/
def resetState {K : Type} (o : ExcludeObject K) : ExcludeObject K :=
  { o with
    objects := [], excludedObjects := [], currentObject := none, inExcludedRegion := false
    objectEndCount := [], excludeEnabled := true, isExcludedObject := false }

/-- The module after `__init__`. -/
def init : ExcludeObject K :=
  { nextTransform := false, transform := none
    lastPositionExtruded := 0, lastPositionExcluded := 0
    objects := [], excludedObjects := [], currentObject := none, inExcludedRegion := false
    objectEndCount := [], excludeEnabled := true, isExcludedObject := false }

/-! ## The move transform -/

/-- `_get_extrusion_offsets` -/
def extrusionOffset (tr : ExcludeTransform K) (extruder : String) : Position K :=
  (tr.extrusionOffsets extruder).getD 0

/-- The offsets of an extruder are set. -/
def setOffset {K : Type} (tr : ExcludeTransform K) (extruder : String) (offset : Position K) :
    ExcludeTransform K :=
  { tr with extrusionOffsets := Function.update tr.extrusionOffsets extruder (some offset) }

/-- `_register_transform` -/
def registerTransform (ctx : ExcludeContext K) (o : ExcludeObject K) : ExcludeObject K :=
  if o.nextTransform then o
  else if ctx.tuningActive then o
  else
    { o with
      nextTransform := true
      transform := some
        { extrusionOffsets := Function.update (fun _ => none) ctx.extruder (some 0)
          maxPositionExtruded := 0, maxPositionExcluded := 0, extruderAdj := 0
          initialExtrusionMoves := 5, lastPosition := ctx.nextPosition }
      lastPositionExtruded := ctx.nextPosition
      lastPositionExcluded := ctx.nextPosition }

/-- `_unregister_transform` -/
def unregisterTransform (ctx : ExcludeContext K) (o : ExcludeObject K) : ExcludeOutcome K :=
  if o.nextTransform ∧ ¬ ctx.tuningActive then
    done { o with nextTransform := false } [.resetLastPosition]
  else done o []

/-- `_reset_file` -/
def resetFile (ctx : ExcludeContext K) (o : ExcludeObject K) : ExcludeOutcome K :=
  unregisterTransform ctx o.resetState

/-- The offsets and the adjustment after the corrections of a move that is made. -/
def correctOffset (offset : Position K) (adj : K) (newpos excluded : Position K) :
    Position K × K :=
  let (offset, adj) :=
    if (offset 0 ≠ 0 ∨ offset 1 ≠ 0) ∧ (newpos 0 ≠ excluded 0 ∨ newpos 1 ≠ excluded 1) then
      (![0, 0, 0, offset 3 + adj], 0)
    else (offset, adj)
  let offset :=
    if offset 2 ≠ 0 ∧ newpos 2 ≠ excluded 2 then Function.update offset 2 0 else offset
  if adj ≠ 0 ∧ newpos 3 ≠ excluded 3 then (Function.update offset 3 (offset 3 + adj), 0)
  else (offset, adj)

/-- `_normal_move` -/
def normalMove (ctx : ExcludeContext K) (o : ExcludeObject K) (tr : ExcludeTransform K)
    (newpos : Position K) (speed : K) : ExcludeOutcome K :=
  let (offset, adj) := correctOffset (extrusionOffset tr ctx.extruder) tr.extruderAdj newpos
    o.lastPositionExcluded
  let tr' :=
    { setOffset tr ctx.extruder offset with
      initialExtrusionMoves :=
        if 0 < tr.initialExtrusionMoves ∧ tr.lastPosition 3 ≠ newpos 3 then
          tr.initialExtrusionMoves - 1
        else tr.initialExtrusionMoves
      lastPosition := newpos
      maxPositionExtruded := max tr.maxPositionExtruded (newpos 3)
      extruderAdj := adj }
  done { o with transform := some tr', lastPositionExtruded := newpos }
    [.move (fun i => newpos i - offset i) speed]

/-- `_ignore_move` -/
def ignoreMove (ctx : ExcludeContext K) (o : ExcludeObject K) (tr : ExcludeTransform K)
    (newpos : Position K) : ExcludeOutcome K :=
  let offset : Position K := fun i =>
    if i = 3 then extrusionOffset tr ctx.extruder 3 + newpos 3 - tr.lastPosition 3
    else newpos i - o.lastPositionExtruded i
  let tr' :=
    { setOffset tr ctx.extruder offset with
      lastPosition := newpos
      maxPositionExcluded := max tr.maxPositionExcluded (newpos 3) }
  done { o with transform := some tr', lastPositionExcluded := newpos } []

/-- `_move_into_excluded_region` -/
def moveIntoExcludedRegion (ctx : ExcludeContext K) (o : ExcludeObject K)
    (tr : ExcludeTransform K) (newpos : Position K) : ExcludeOutcome K :=
  ignoreMove ctx { o with inExcludedRegion := true } tr newpos

/-- `_move_from_excluded_region` -/
def moveFromExcludedRegion (ctx : ExcludeContext K) (o : ExcludeObject K)
    (tr : ExcludeTransform K) (newpos : Position K) (speed : K) : ExcludeOutcome K :=
  let tr' :=
    { tr with
      extruderAdj := tr.maxPositionExcluded - o.lastPositionExcluded 3 -
        (tr.maxPositionExtruded - o.lastPositionExtruded 3) }
  normalMove ctx { o with inExcludedRegion := false } tr' newpos speed

/-- `current_object in excluded_objects`; no object is in none of them. -/
def currentExcluded {K : Type} (o : ExcludeObject K) : Bool :=
  o.currentObject.any (· ∈ o.excludedObjects)

/-- `_test_in_excluded_region_for_move`; without a transform an excluded object has no
count of moves, and the test raises. -/
def testInExcludedRegionForMove {K : Type} (o : ExcludeObject K) : Except Raised Bool :=
  if o.isExcludedObject then
    match o.transform with
    | none => .error (.exception "initial_extrusion_moves")
    | some tr => .ok (tr.initialExtrusionMoves = 0)
  else .ok false

/-- `_test_in_excluded_region` -/
def testInExcludedRegion {K : Type} (o : ExcludeObject K) : ExcludeObject K × Except Raised Bool :=
  let o := { o with isExcludedObject := o.currentExcluded }
  (o, o.testInExcludedRegionForMove)

/-- `move` -/
def move (ctx : ExcludeContext K) (o : ExcludeObject K) (newpos : Position K) (speed : K) :
    ExcludeOutcome K :=
  match o.transform, o.testInExcludedRegionForMove with
  | none, _ => ⟨o, [], some (.exception "extrusion_offsets")⟩
  | some _, .error e => ⟨o, [], some e⟩
  | some tr, .ok true =>
      if o.inExcludedRegion then ignoreMove ctx o tr newpos
      else moveIntoExcludedRegion ctx o tr newpos
  | some tr, .ok false =>
      if o.inExcludedRegion then moveFromExcludedRegion ctx o tr newpos speed
      else normalMove ctx o tr newpos speed

/-! ## Commands -/

/-- `OBJECT_START_DIFF` -/
def objectStartDiff : Nat := 3

/-- `MAX_OBJECTS_NUM` -/
def maxObjectsNum : Nat := 64

/-- `sorted` of names. -/
def sorted (names : List String) : List String := names.insertionSort (· ≤ ·)

/-- A key of a dict is set. -/
def setCount (counts : List (String × Nat)) (name : String) (n : Nat) : List (String × Nat) :=
  if counts.any (·.1 = name) then counts.map fun c => if c.1 = name then (name, n) else c
  else counts ++ [(name, n)]

/-- `_add_object_definition` -/
def addObjectDefinition {K : Type} (o : ExcludeObject K) (name : String) : ExcludeObject K :=
  { o with
    objects := sorted (o.objects ++ [name])
    objectEndCount := setCount o.objectEndCount name 0 }

/-- `_exclude_object` -/
def excludeObject (upper : String → String) (ctx : ExcludeContext K) (o : ExcludeObject K)
    (name : String) : ExcludeOutcome K :=
  let o := o.registerTransform ctx
  if name ∈ o.excludedObjects then done o [.respondInfo ("Excluding object " ++ upper name)]
  else
    let excluded := sorted (o.excludedObjects ++ [name])
    done { o with excludedObjects := excluded }
      [.respondInfo ("Excluding object " ++ upper name), .saveExcluded excluded]

/-- `_unexclude_object` -/
def unexcludeObject (upper : String → String) (o : ExcludeObject K) (name : String) :
    ExcludeOutcome K :=
  if name ∈ o.excludedObjects then
    let excluded := sorted (o.excludedObjects.erase name)
    done { o with excludedObjects := excluded }
      [.respondInfo ("Unexcluding object " ++ upper name), .saveExcluded excluded]
  else done o [.respondInfo ("Unexcluding object " ++ upper name)]

/-- `cmd_EXCLUDE_OBJECT_START` -/
def cmdStart (upper : String → String) (gcmd : GCodeCommand) (o : ExcludeObject K) :
    ExcludeOutcome K :=
  match gcmd.param "NAME" with
  | none => ⟨o, [], some (.error ("Error on '" ++ gcmd.commandline ++ "': missing NAME"))⟩
  | some text =>
    let name := upper text
    let o := if name ∈ o.objects then o else o.addObjectDefinition name
    match testInExcludedRegion { o with currentObject := some name } with
    | (o, .error e) => ⟨o, [], some e⟩
    | (o, .ok wasExcludedAtStart) => done o (if wasExcludedAtStart then [.pause] else [])

/-- The count of the ends of an excluded object, and the error that ends the print. -/
def countEnd (o : ExcludeObject K) (name : String) (actions : List (ExcludeAction K)) :
    ExcludeOutcome K :=
  let counts := setCount o.objectEndCount name ((o.objectEndCount.lookup name).getD 0 + 1)
  ⟨{ o with objectEndCount := counts }, actions,
    if counts.any (fun c => objectStartDiff < c.2) then some (.error "exclude_object over")
    else none⟩

/-- `cmd_EXCLUDE_OBJECT_END` -/
def cmdEnd (upper : String → String) (gcmd : GCodeCommand) (o : ExcludeObject K) :
    ExcludeOutcome K :=
  if o.currentObject = none ∧ o.nextTransform then
    done o [.respondInfo "EXCLUDE_OBJECT_END called, but no object is currently active"]
  else
    let name := (gcmd.param "NAME").map upper
    let actions : List (ExcludeAction K) :=
      match name with
      | none => []
      | some n =>
        if o.currentObject = some n then []
        else [.respondInfo ("EXCLUDE_OBJECT_END NAME=" ++ n ++
          " does not match the current object NAME=" ++ o.currentObject.getD "None")]
    let o := { o with currentObject := none }
    match o.testInExcludedRegionForMove, name with
    | .error e, _ => ⟨o, actions, some e⟩
    | .ok false, _ =>
        done { o with objectEndCount := o.objectEndCount.map fun c => (c.1, 0) } actions
    | .ok true, none => ⟨o, actions, some (.exception "name")⟩
    | .ok true, some n => o.countEnd n actions

/-- A parameter that is given and not empty. -/
def given (gcmd : GCodeCommand) (name : String) : Option String :=
  (gcmd.param name).filter (· ≠ "")

/-- `cmd_EXCLUDE_OBJECT` -/
def cmdExclude (upper : String → String) (ctx : ExcludeContext K) (gcmd : GCodeCommand)
    (o : ExcludeObject K) : ExcludeOutcome K :=
  match given gcmd "RESET", (given gcmd "NAME").map upper, given gcmd "CURRENT" with
  | some _, some name, _ => o.unexcludeObject upper name
  | some _, none, _ => done { o with excludedObjects := [] } []
  | none, some name, _ =>
      if upper name ∈ o.excludedObjects then done o []
      else o.excludeObject upper ctx (upper name)
  | none, none, some _ =>
      match o.currentObject with
      | none => ⟨o, [], some (.error "There is no current object to cancel")⟩
      | some name => o.excludeObject upper ctx name
  | none, none, none =>
      done o [.respondInfo ("Excluded objects: " ++ " ".intercalate o.excludedObjects)]

/-- `cmd_EXCLUDE_OBJECT_DEFINE`; the list of the objects is answered without `JSON`. -/
def cmdDefine (upper : String → String) (ctx : ExcludeContext K) (gcmd : GCodeCommand)
    (o : ExcludeObject K) : ExcludeOutcome K :=
  if ¬ o.excludeEnabled then done o []
  else
    match given gcmd "RESET", (given gcmd "NAME").map upper with
    | some _, _ => resetFile ctx o
    | none, some name =>
        if maxObjectsNum ≤ o.objects.length then
          done { o with excludeEnabled := false } [.saveEnabled false]
        else done (o.addObjectDefinition (upper name)) []
    | none, none =>
        done o [.respondInfo ("Known objects: " ++ " ".intercalate o.objects)]

/-- `cmd_SET_EXCLUDE_ENABLE`, its parameter read. -/
def setExcludeEnable (o : ExcludeObject K) (enable : Int) : ExcludeOutcome K :=
  done { o with excludeEnabled := enable ≠ 0 }
    [.saveEnabled (enable ≠ 0), .respondInfo "Exclude_object set success"]

end ExcludeObject

/-! ## Events -/

/-- What happens to the module, each with what it reads of the rest of the program. -/
inductive ExcludeEvent (K : Type)
  | start (gcmd : GCodeCommand)
  | finish (gcmd : GCodeCommand)
  | exclude (gcmd : GCodeCommand) (ctx : ExcludeContext K)
  | define (gcmd : GCodeCommand) (ctx : ExcludeContext K)
  | setEnable (enable : Int)
  | resetFile (ctx : ExcludeContext K)
  | move (newpos : Position K) (speed : K) (ctx : ExcludeContext K)

open ExcludeObject in
/-- The outcome of an event; a move passes through the module while it is the move
transform. -/
def ExcludeObject.handle (upper : String → String) (o : ExcludeObject K) :
    ExcludeEvent K → ExcludeOutcome K
  | .start gcmd => o.cmdStart upper gcmd
  | .finish gcmd => o.cmdEnd upper gcmd
  | .exclude gcmd ctx => o.cmdExclude upper ctx gcmd
  | .define gcmd ctx => o.cmdDefine upper ctx gcmd
  | .setEnable enable => o.setExcludeEnable enable
  | .resetFile ctx => o.resetFile ctx
  | .move newpos speed ctx =>
      if o.nextTransform then o.move ctx newpos speed else done o [.move newpos speed]

end FlsunT1.Klippy
