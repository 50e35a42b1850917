/-
  Library/Bytes.lean --- integers as bytes, the lowest one first.
-/
import Mathlib.Data.Nat.ModEq
import Mathlib.Tactic.Ring

set_option autoImplicit false

namespace FlsunT1.Library

/-- The lowest `n` bytes of `x`. -/
def leBytes : ℕ → ℕ → List UInt8
  | 0, _ => []
  | n + 1, x => UInt8.ofNat x :: leBytes n (x / 256)

/-- The number with the given bytes. -/
def ofLeBytes : List UInt8 → ℕ
  | [] => 0
  | b :: bs => b.toNat + 256 * ofLeBytes bs

theorem ofLeBytes_leBytes (n x : ℕ) : ofLeBytes (leBytes n x) = x % 256 ^ n := by
  induction n generalizing x with
  | zero => rw [leBytes, ofLeBytes, pow_zero, Nat.mod_one]
  | succ n ih =>
    have hbyte : (UInt8.ofNat x).toNat = x % 256 := UInt8.toNat_ofNat'
    rw [leBytes, ofLeBytes, ih, hbyte, pow_succ, mul_comm (256 ^ n), Nat.mod_mul]

/-- A signed number in eight bytes. -/
def packSigned (x : ℤ) : List UInt8 := leBytes 8 (x % 2 ^ 64).toNat

/-- The signed number in eight bytes. -/
def unpackSigned (bs : List UInt8) : ℤ :=
  if ofLeBytes bs < 2 ^ 63 then ofLeBytes bs else ofLeBytes bs - 2 ^ 64

theorem unpackSigned_packSigned {x : ℤ} (hlow : -2 ^ 63 ≤ x) (hhigh : x < 2 ^ 63) :
    unpackSigned (packSigned x) = x := by
  rw [unpackSigned, packSigned, ofLeBytes_leBytes]
  have hpow : 256 ^ 8 = 2 ^ 64 := by decide
  rw [hpow]
  split <;> omega

end FlsunT1.Library
