/-
  Library/Vlq.lean --- integers as variable length quantities.

  A number is written in base 128, the highest digit first, and every byte but the
  last has its highest bit set.  The first digit carries the sign: the digits from
  96 on stand for -32 to -1.  So `n + 1` digits hold the numbers from `-32 * 128^n`
  up to `96 * 128^n`, and these are read back as they were written.
-/
import Mathlib.Algebra.Order.Ring.Int
import Mathlib.Tactic.Positivity

set_option autoImplicit false

namespace FlsunT1.Library

namespace Vlq

/-! ## Digits -/

/-- The lowest digit of a number, as the last byte. -/
def lastByte (x : Int) : UInt8 := UInt8.ofNat (x % 128).toNat

/-- The lowest digit of a number, as a byte with another after it. -/
def contByte (x : Int) : UInt8 := UInt8.ofNat ((x % 128).toNat + 128)

/-- The lowest `n + 1` digits of a number. -/
def write : Nat → Int → List UInt8
  | 0, x => [lastByte x]
  | n + 1, x => contByte (x / 128 ^ (n + 1)) :: write n x

/-- The numbers that `n + 1` digits hold. -/
def InRange (n : Nat) (x : Int) : Prop := -32 * 128 ^ n ≤ x ∧ x < 96 * 128 ^ n

/-- The digit of a byte. -/
def digit (c : UInt8) : Int := c.toNat % 128

/-- The digit of the first byte, with the sign. -/
def signDigit (c : UInt8) : Int := if 96 ≤ digit c then digit c - 128 else digit c

/-- Another byte follows. -/
def More (c : UInt8) : Prop := 128 ≤ c.toNat

instance (c : UInt8) : Decidable (More c) := inferInstanceAs (Decidable (128 ≤ c.toNat))

/-- Read the digits after `x`. -/
def readTail (x : Int) : List UInt8 → Option (Int × List UInt8)
  | [] => none
  | c :: rest =>
      let x := x * 128 + digit c
      if More c then readTail x rest else some (x, rest)

/-- Read a number, and what follows it. -/
def read : List UInt8 → Option (Int × List UInt8)
  | [] => none
  | c :: rest => if More c then readTail (signDigit c) rest else some (signDigit c, rest)

@[simp] theorem length_write (n : Nat) (x : Int) : (write n x).length = n + 1 := by
  induction n with
  | zero => rfl
  | succ n ih => rw [write, List.length_cons, ih]

theorem digit_lastByte (x : Int) : digit (lastByte x) = x % 128 := by
  have hlt := Int.emod_lt_of_pos x (show (0 : Int) < 128 by decide)
  have hnonneg := Int.emod_nonneg x (show (128 : Int) ≠ 0 by decide)
  rw [digit, lastByte, UInt8.toNat_ofNat']
  omega

theorem not_more_lastByte (x : Int) : ¬More (lastByte x) := by
  have hlt := Int.emod_lt_of_pos x (show (0 : Int) < 128 by decide)
  rw [More, lastByte, UInt8.toNat_ofNat']
  omega

theorem digit_contByte (x : Int) : digit (contByte x) = x % 128 := by
  have hlt := Int.emod_lt_of_pos x (show (0 : Int) < 128 by decide)
  have hnonneg := Int.emod_nonneg x (show (128 : Int) ≠ 0 by decide)
  rw [digit, contByte, UInt8.toNat_ofNat']
  omega

theorem more_contByte (x : Int) : More (contByte x) := by
  have hlt := Int.emod_lt_of_pos x (show (0 : Int) < 128 by decide)
  rw [More, contByte, UInt8.toNat_ofNat']
  omega

/-- The quotient that is left when one more digit is taken off. -/
theorem ediv_pow_succ (x : Int) (n : Nat) : x / 128 ^ (n + 1) = x / 128 ^ n / 128 := by
  rw [pow_succ, Int.ediv_ediv_of_nonneg (by positivity)]

/-- A first digit with the sign is the number that is left of the others. -/
theorem signDigit_eq {n : Nat} {x : Int} {c : UInt8} (h : InRange n x)
    (hc : digit c = x / 128 ^ n % 128) : signDigit c = x / 128 ^ n := by
  have hpos : (0 : Int) < 128 ^ n := by positivity
  have hlo : -32 ≤ x / 128 ^ n := (Int.le_ediv_iff_mul_le hpos).mpr h.1
  have hhi : x / 128 ^ n < 96 := (Int.ediv_lt_iff_lt_mul hpos).mpr h.2
  rw [signDigit, hc]
  split <;> omega

/-! ## The round trip -/

theorem readTail_write (n : Nat) (x : Int) (rest : List UInt8) :
    readTail (x / 128 ^ (n + 1)) (write n x ++ rest) = some (x, rest) := by
  induction n with
  | zero =>
    rw [write, List.singleton_append, readTail, if_neg (not_more_lastByte x), digit_lastByte]
    congr 2
    rw [pow_one]
    omega
  | succ n ih =>
    rw [write, List.cons_append, readTail, if_pos (more_contByte _), digit_contByte,
      ediv_pow_succ x (n + 1)]
    have hquot : x / 128 ^ (n + 1) / 128 * 128 + x / 128 ^ (n + 1) % 128 = x / 128 ^ (n + 1) := by
      omega
    rw [hquot, ih]

/-- What was written is read back, whatever follows it. -/
theorem read_write {n : Nat} {x : Int} (h : InRange n x) (rest : List UInt8) :
    read (write n x ++ rest) = some (x, rest) := by
  cases n with
  | zero =>
    have hx := signDigit_eq h (digit_lastByte (x / 128 ^ 0))
    rw [pow_zero, Int.ediv_one] at hx
    rw [write, List.singleton_append, read, if_neg (not_more_lastByte x), hx]
  | succ n =>
    rw [write, List.cons_append, read, if_pos (more_contByte _),
      signDigit_eq h (digit_contByte _), readTail_write]

end Vlq

end FlsunT1.Library
