/-
  Klippy/GcodeCommand.lean --- a command and its parameters (klippy/gcode.py).

  The handlers see a command as its line and the parameters cut out of it.  How Python
  reads a number from a text is a parameter of the model, and a handler that raises
  gives the text of its error.
-/
import Mathlib.Algebra.Order.Field.Basic
import Mathlib.Algebra.Order.Ring.Rat
import FlsunT1.Library.Instances

set_option autoImplicit false

namespace FlsunT1.Klippy

/-- `float` and `int`, on the texts they accept. -/
structure Numerals (K : Type*) where
  float : String → Option K
  int : String → Option Int

/-- Numerals that read the texts of a list. -/
def numerals (texts : List (String × ℚ)) : Numerals ℚ where
  float text := texts.lookup text
  int text := (texts.lookup text).map (·.num)

/-- `class GCodeCommand`; `params` has the names and the values of `_params`. -/
structure GCodeCommand where
  commandline : String
  params : List (String × String)
  deriving DecidableEq, Repr

/-- A bound of `get` and how `%s` shows it. -/
structure Bound (α : Type*) where
  value : α
  text : String

/-- The bounds of `get`. -/
structure Bounds (α : Type*) where
  minval : Option (Bound α)
  maxval : Option (Bound α)
  above : Option (Bound α)
  below : Option (Bound α)

namespace Bounds

variable {α : Type*}

/-- `get` without bounds. -/
def free : Bounds α := ⟨none, none, none, none⟩

/-- `above=0.` -/
def aboveZero [Zero α] : Bounds α := ⟨none, none, some ⟨0, "0.0"⟩, none⟩

/-- `minval=0.` -/
def minZero [Zero α] : Bounds α := ⟨some ⟨0, "0.0"⟩, none, none, none⟩

end Bounds

namespace GCodeCommand

variable {K α : Type*} [LinearOrder α]

/-- `self._params.get(name)` -/
def param (gcmd : GCodeCommand) (name : String) : Option String := gcmd.params.lookup name

/-- `name in params` -/
def has (gcmd : GCodeCommand) (name : String) : Bool := (gcmd.param name).isSome

/-- The error of one bound, when the value is on its wrong side. -/
def outside (gcmd : GCodeCommand) (name relation : String) (wrong : α → Bool) :
    Option (Bound α) → Except String Unit
  | none => .ok ()
  | some b =>
      if wrong b.value then
        .error ("Error on '" ++ gcmd.commandline ++ "': " ++ name ++ relation ++ b.text)
      else .ok ()

/-- The checks of `get` on a value. -/
def checkBounds (gcmd : GCodeCommand) (name : String) (bounds : Bounds α) (value : α) :
    Except String Unit := do
  gcmd.outside name " must have minimum of " (fun b => value < b) bounds.minval
  gcmd.outside name " must have maximum of " (fun b => b < value) bounds.maxval
  gcmd.outside name " must be above " (fun b => value ≤ b) bounds.above
  gcmd.outside name " must be below " (fun b => b ≤ value) bounds.below

/-- `get`; where a parameter is missing the caller's default takes the place of `none`. -/
def get (gcmd : GCodeCommand) (name : String) (parser : String → Option α)
    (bounds : Bounds α) : Except String (Option α) :=
  match gcmd.param name with
  | none => .ok none
  | some text =>
    match parser text with
    | none => .error ("Error on '" ++ gcmd.commandline ++ "': unable to parse " ++ text)
    | some value => (gcmd.checkBounds name bounds value).map fun _ => some value

/-- `get_float` -/
def getFloat [LinearOrder K] (num : Numerals K) (gcmd : GCodeCommand) (name : String)
    (bounds : Bounds K) : Except String (Option K) :=
  gcmd.get name num.float bounds

/-- `get_int` -/
def getInt (num : Numerals K) (gcmd : GCodeCommand) (name : String) :
    Except String (Option Int) :=
  gcmd.get name num.int .free

theorem get_checkBounds {gcmd : GCodeCommand} {name : String} {parser : String → Option α}
    {bounds : Bounds α} {v : α} (h : gcmd.get name parser bounds = .ok (some v)) :
    gcmd.checkBounds name bounds v = .ok () := by
  rw [get] at h
  split at h
  · cases h
  · split at h
    · cases h
    · rename_i value _
      cases hbounds : gcmd.checkBounds name bounds value with
      | error e => rw [hbounds] at h; cases h
      | ok u =>
        rw [hbounds] at h
        cases h
        exact hbounds

theorem getFloat_aboveZero [LinearOrder K] [Zero K] {num : Numerals K} {gcmd : GCodeCommand}
    {name : String} {v : K} (h : gcmd.getFloat num name .aboveZero = .ok (some v)) : 0 < v := by
  have hbounds := get_checkBounds h
  by_contra hneg
  have habove : decide (v ≤ 0) = true := decide_eq_true (not_lt.mp hneg)
  simp only [checkBounds, outside, Bounds.aboveZero, habove, if_true] at hbounds
  cases hbounds

end GCodeCommand

end FlsunT1.Klippy
