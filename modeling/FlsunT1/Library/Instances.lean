/-
  Library/Instances.lean --- instances that have a name.

  A numeral of a field comes with the proof that it is two or more, and a test in a list
  with the laws of the equality test.  Where several modules write the same one, it is
  the instance named here.
-/
import Mathlib.Data.Nat.Init
import Mathlib.Data.String.Basic

set_option autoImplicit false

namespace FlsunT1.Library

instance (priority := 2000) atLeastTwo2 : Nat.AtLeastTwo 2 := inferInstance

instance (priority := 2000) atLeastTwo3 : Nat.AtLeastTwo 3 := inferInstance

instance (priority := 2000) atLeastTwo4 : Nat.AtLeastTwo 4 := inferInstance

instance (priority := 2000) atLeastTwo5 : Nat.AtLeastTwo 5 := inferInstance

instance (priority := 2000) atLeastTwo6 : Nat.AtLeastTwo 6 := inferInstance

instance (priority := 2000) atLeastTwo9 : Nat.AtLeastTwo 9 := inferInstance

instance (priority := 2000) atLeastTwo10 : Nat.AtLeastTwo 10 := inferInstance

instance (priority := 2000) atLeastTwo20 : Nat.AtLeastTwo 20 := inferInstance

instance (priority := 2000) atLeastTwo30 : Nat.AtLeastTwo 30 := inferInstance

instance (priority := 2000) atLeastTwo65 : Nat.AtLeastTwo 65 := inferInstance

instance (priority := 2000) atLeastTwo74 : Nat.AtLeastTwo 74 := inferInstance

instance (priority := 2000) atLeastTwo90 : Nat.AtLeastTwo 90 := inferInstance

instance (priority := 2000) atLeastTwo100 : Nat.AtLeastTwo 100 := inferInstance

instance (priority := 2000) atLeastTwo150 : Nat.AtLeastTwo 150 := inferInstance

instance (priority := 2000) atLeastTwo180 : Nat.AtLeastTwo 180 := inferInstance

instance (priority := 2000) atLeastTwo200 : Nat.AtLeastTwo 200 := inferInstance

instance (priority := 2000) atLeastTwo210 : Nat.AtLeastTwo 210 := inferInstance

instance (priority := 2000) atLeastTwo255 : Nat.AtLeastTwo 255 := inferInstance

instance (priority := 2000) atLeastTwo270 : Nat.AtLeastTwo 270 := inferInstance

instance (priority := 2000) atLeastTwo300 : Nat.AtLeastTwo 300 := inferInstance

instance (priority := 2000) atLeastTwo320 : Nat.AtLeastTwo 320 := inferInstance

instance (priority := 2000) atLeastTwo330 : Nat.AtLeastTwo 330 := inferInstance

instance (priority := 2000) atLeastTwo360 : Nat.AtLeastTwo 360 := inferInstance

instance (priority := 2000) atLeastTwo400 : Nat.AtLeastTwo 400 := inferInstance

instance (priority := 2000) atLeastTwo500 : Nat.AtLeastTwo 500 := inferInstance

instance (priority := 2000) atLeastTwo600 : Nat.AtLeastTwo 600 := inferInstance

instance (priority := 2000) atLeastTwo900 : Nat.AtLeastTwo 900 := inferInstance

instance (priority := 2000) atLeastTwo1000 : Nat.AtLeastTwo 1000 := inferInstance

instance (priority := 2000) atLeastTwo1400 : Nat.AtLeastTwo 1400 := inferInstance

instance (priority := 2000) atLeastTwo10000 : Nat.AtLeastTwo 10000 := inferInstance

instance (priority := 2000) atLeastTwo22500 : Nat.AtLeastTwo 22500 := inferInstance

instance (priority := 2000) atLeastTwo250000 : Nat.AtLeastTwo 250000 := inferInstance

instance (priority := 2000) atLeastTwo99999999 : Nat.AtLeastTwo 99999999 := inferInstance

instance (priority := 2000) atLeastTwo9999999999999 : Nat.AtLeastTwo 9999999999999 := inferInstance

instance (priority := 2000) lawfulBEqNatPair : LawfulBEq (Nat × Nat) := inferInstance

instance (priority := 2000) stringLeTrans : IsTrans String (· ≤ ·) := inferInstance

instance (priority := 2000) stringLeAntisymm : Std.Antisymm (α := String) (· ≤ ·) := inferInstance

end FlsunT1.Library
