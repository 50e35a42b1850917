/-
  Library/Word.lean --- 32 bit machine words as integers.

  A `uint32_t` is the integer it denotes in `[0, 2^32)`, an `int32_t` the one it
  denotes in `[-2^31, 2^31)`.  Every operation is carried out on the integers
  and brought back by `u32` or `i32`, so wrap-around arithmetic is explicit in
  each definition that uses it and linear facts about it are left to `omega`.
-/
import Mathlib.Algebra.Order.Ring.Int
import Mathlib.Tactic.Linarith

set_option autoImplicit false

namespace FlsunT1.Library

/-- The value of `x` as a `uint32_t`. -/
def u32 (x : Int) : Int := x % 4294967296

/-- The value of `x` as an `int32_t`. -/
def i32 (x : Int) : Int := (x + 2147483648) % 4294967296 - 2147483648

/-- The value of `x` as a `uint64_t`. -/
def u64 (x : Int) : Int := x % 18446744073709551616

/-- The value of `x` as a `uint16_t`. -/
def u16 (x : Int) : Int := x % 65536

/-- The value of `x` as an `int16_t`. -/
def i16 (x : Int) : Int := (x + 32768) % 65536 - 32768

theorem u32_nonneg (x : Int) : 0 ≤ u32 x := by
  unfold u32; omega

theorem u32_lt (x : Int) : u32 x < 4294967296 := by
  unfold u32; omega

theorem u32_of_range {x : Int} (h0 : 0 ≤ x) (h1 : x < 4294967296) : u32 x = x := by
  unfold u32; omega

theorem i32_of_range {x : Int} (h0 : -2147483648 ≤ x) (h1 : x < 2147483648) : i32 x = x := by
  unfold i32; omega

theorem i16_of_range {x : Int} (h0 : -32768 ≤ x) (h1 : x < 32768) : i16 x = x := by
  unfold i16; omega

end FlsunT1.Library
