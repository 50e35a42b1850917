/-
  Library/Crc.lean --- the remainder of a bit stream, kept in a shift register.

  The register is linear in exclusive or.  Where the polynomial has a constant term it forgets
  nothing, and bits that differ within the width of the register change the remainder.
-/
import Mathlib.Data.Nat.Notation

set_option autoImplicit false

namespace FlsunT1.Library

variable {w : ℕ}

/-- One bit enters at the high end. -/
def crcBit (poly crc : BitVec w) (bit : Bool) : BitVec w :=
  if (crc.msb ^^ bit) = true then (crc <<< 1) ^^^ poly else crc <<< 1

/-- A stream of bits. -/
def crcBits (poly : BitVec w) (bits : List Bool) (crc : BitVec w) : BitVec w :=
  bits.foldl (crcBit poly) crc

variable {poly : BitVec w}

theorem crcBits_cons (bit : Bool) (bits : List Bool) (crc : BitVec w) :
    crcBits poly (bit :: bits) crc = crcBits poly bits (crcBit poly crc bit) := rfl

theorem crcBits_append (bits bits' : List Bool) (crc : BitVec w) :
    crcBits poly (bits ++ bits') crc = crcBits poly bits' (crcBits poly bits crc) :=
  List.foldl_append

theorem shiftLeft_xor (c d : BitVec w) : (c ^^^ d) <<< 1 = (c <<< 1) ^^^ (d <<< 1) :=
  BitVec.shiftLeft_xor_distrib c d 1

/-- A bit of two registers at once. -/
theorem crcBit_xor (c d : BitVec w) (x y : Bool) :
    crcBit poly (c ^^^ d) (x ^^ y) = crcBit poly c x ^^^ crcBit poly d y := by
  have hmsb : ((c ^^^ d).msb ^^ (x ^^ y)) = ((c.msb ^^ x) ^^ (d.msb ^^ y)) := by
    rw [BitVec.msb_xor]
    cases c.msb <;> cases d.msb <;> cases x <;> cases y <;> rfl
  unfold crcBit
  rw [hmsb, shiftLeft_xor]
  cases (c.msb ^^ x) <;> cases (d.msb ^^ y)
  · rfl
  · exact BitVec.xor_assoc _ _ _
  · change (c <<< 1) ^^^ (d <<< 1) ^^^ poly = (c <<< 1) ^^^ poly ^^^ (d <<< 1)
    rw [BitVec.xor_assoc, BitVec.xor_comm (d <<< 1), ← BitVec.xor_assoc]
  · change (c <<< 1) ^^^ (d <<< 1) = (c <<< 1) ^^^ poly ^^^ ((d <<< 1) ^^^ poly)
    rw [BitVec.xor_assoc (c <<< 1) poly, ← BitVec.xor_assoc poly, BitVec.xor_comm poly,
      BitVec.xor_assoc (d <<< 1), BitVec.xor_self, BitVec.xor_zero]

/-- The register is linear in the stream and in what it starts with. -/
theorem crcBits_xor {bits bits' : List Bool} (h : bits.length = bits'.length) (c d : BitVec w) :
    crcBits poly (bits.zipWith xor bits') (c ^^^ d) =
      crcBits poly bits c ^^^ crcBits poly bits' d := by
  induction bits generalizing bits' c d with
  | nil =>
    obtain rfl := List.length_eq_zero_iff.mp h.symm
    rfl
  | cons x bits ih =>
    cases bits' with
    | nil => cases h
    | cons y bits' =>
      rw [List.zipWith_cons_cons, crcBits_cons, crcBit_xor]
      exact ih (Nat.succ.inj h) _ _

/-- The lowest bits of the register are zero. -/
def LowZero (n : ℕ) (c : BitVec w) : Prop := ∀ i < n, c.getLsbD i = false

theorem lowZero_width_iff {c : BitVec w} : LowZero w c ↔ c = 0#w := by
  constructor
  · intro h
    apply BitVec.eq_of_getLsbD_eq
    intro i hi
    rw [h i hi, BitVec.getLsbD_zero]
  · rintro rfl i -
    exact BitVec.getLsbD_zero

section Constant

variable (hpoly : poly.getLsbD 0 = true)
include hpoly

/-- Zeros at the low end have come from a shift. -/
theorem lowZero_of_crcBit {c : BitVec w} {x : Bool} {n : ℕ} (hn : n < w)
    (h : LowZero (n + 1) (crcBit poly c x)) : LowZero n c ∧ (c.msb ^^ x) = false := by
  have hfeed : (c.msb ^^ x) = false := by
    rw [← Bool.not_eq_true]
    intro htrue
    have hbit := h 0 (Nat.succ_pos n)
    rw [crcBit, if_pos htrue, BitVec.getLsbD_xor, hpoly, BitVec.getLsbD_shiftLeft] at hbit
    simp at hbit
  refine ⟨fun i hi => ?_, hfeed⟩
  have hbit := h (i + 1) (Nat.succ_lt_succ hi)
  rw [crcBit, hfeed, if_neg Bool.false_ne_true, BitVec.getLsbD_shiftLeft] at hbit
  simpa [show i + 1 < w by omega] using hbit

/-- A register that comes to zero was zero at the low end, and so was the stream. -/
theorem lowZero_of_crcBits {bits : List Bool} {c : BitVec w} (hle : bits.length ≤ w)
    (h : crcBits poly bits c = 0#w) : LowZero (w - bits.length) c := by
  induction bits generalizing c with
  | nil => exact lowZero_width_iff.mpr h
  | cons x bits ih =>
    rw [List.length_cons] at hle ⊢
    have hlow := ih (Nat.le_of_succ_le hle) h
    have hwidth : w - bits.length = w - (bits.length + 1) + 1 := by omega
    rw [hwidth] at hlow
    exact (lowZero_of_crcBit hpoly (by omega) hlow).1

/-- No more bits than the register is wide bring it back to zero, except zeros. -/
theorem eq_false_of_crcBits_eq_zero {bits : List Bool} (hle : bits.length ≤ w)
    (h : crcBits poly bits 0#w = 0#w) : ∀ x ∈ bits, x = false := by
  induction bits with
  | nil => exact List.forall_mem_nil _
  | cons x bits ih =>
    rw [List.length_cons] at hle
    rw [crcBits_cons] at h
    have hlow := lowZero_of_crcBits hpoly (Nat.le_of_succ_le hle) h
    have hwidth : w - bits.length = w - (bits.length + 1) + 1 := by omega
    rw [hwidth] at hlow
    have hx : x = false := by
      have hfeed := (lowZero_of_crcBit hpoly (by omega) hlow).2
      rwa [BitVec.msb_zero, Bool.false_xor] at hfeed
    subst hx
    have hzero : crcBit poly 0#w false = 0#w := by simp [crcBit]
    rw [hzero] at h
    exact List.forall_mem_cons.mpr ⟨rfl, ih (Nat.le_of_succ_le hle) h⟩

/-- The register forgets nothing of what it held. -/
theorem crcBits_injective (bits : List Bool) {c d : BitVec w} (hw : 0 < w)
    (h : crcBits poly bits c = crcBits poly bits d) : c = d := by
  induction bits generalizing c d with
  | nil => exact h
  | cons x bits ih =>
    have hbit : crcBit poly c x = crcBit poly d x := ih h
    have hxor : crcBit poly (c ^^^ d) false = 0#w := by
      rw [← Bool.xor_self x, crcBit_xor, hbit, BitVec.xor_self]
    have hone := lowZero_width_iff.mpr hxor
    obtain ⟨n, rfl⟩ : ∃ n, w = n + 1 := ⟨w - 1, by omega⟩
    obtain ⟨hlow, hmsb⟩ := lowZero_of_crcBit hpoly (Nat.lt_succ_self n) hone
    rw [Bool.xor_false] at hmsb
    have hzero : c ^^^ d = 0#(n + 1) := by
      apply lowZero_width_iff.mp
      intro i hi
      rcases Nat.lt_succ_iff_lt_or_eq.mp hi with hlt | rfl
      · exact hlow i hlt
      · rwa [BitVec.msb_eq_getLsbD_last] at hmsb
    exact BitVec.xor_eq_zero_iff.mp hzero

/-- Streams that differ within the width of the register have different remainders. -/
theorem crcBits_burst {bits bits' : List Bool} (after : List Bool) {c : BitVec w} (hw : 0 < w)
    (hlength : bits.length = bits'.length) (hle : bits.length ≤ w)
    (h : crcBits poly (bits ++ after) c = crcBits poly (bits' ++ after) c) : bits = bits' := by
  rw [crcBits_append, crcBits_append] at h
  have hstart := crcBits_injective hpoly after hw h
  have hzero : crcBits poly (bits.zipWith xor bits') 0#w = 0#w := by
    rw [← BitVec.xor_self (x := c), crcBits_xor hlength, hstart, BitVec.xor_self, BitVec.xor_self]
  have hall := eq_false_of_crcBits_eq_zero hpoly (by simpa [← hlength] using hle) hzero
  apply List.ext_getElem hlength
  intro i hi hi'
  have hxor := hall _ (List.getElem_mem (n := i) (by simpa [← hlength] using hi))
  rw [List.getElem_zipWith] at hxor
  have hsame : ∀ x y : Bool, (x ^^ y) = false → x = y := by decide
  exact hsame _ _ hxor

end Constant

end FlsunT1.Library
