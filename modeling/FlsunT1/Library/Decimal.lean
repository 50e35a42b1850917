/-
  Library/Decimal.lean --- whole numbers as Python's `int` reads them from a text.
-/
import Mathlib.Data.Int.Init
import FlsunT1.Library.Lines
import FlsunT1.Library.Regex

set_option autoImplicit false

namespace FlsunT1.Library.Text

/-- The digit that a character stands for, in any script. -/
def digitValue (c : Char) : Option ℕ :=
  (Regex.decimalZeros.find? fun z => decide (z ≤ c.toNat ∧ c.toNat < z + 10)).map (c.toNat - ·)

/-- The number with the given digits. -/
def readDigits (t : Text) : Option ℕ :=
  t.foldlM (fun n c => (digitValue c).map (10 * n + ·)) 0

/-- Digits, with single underscores between them. -/
def readNat (t : Text) : Option ℕ :=
  if [] ∈ t.splitOn '_' then none else readDigits (t.splitOn '_').flatten

/-- `int(t)` -/
def readInt (t : Text) : Option ℤ :=
  match strip t with
  | '-' :: t => (readNat t).map fun n => -(n : ℤ)
  | '+' :: t => (readNat t).map fun n => (n : ℤ)
  | t => (readNat t).map fun n => (n : ℤ)

theorem digitValue_of_isDigit {c : Char} (h : c.isDigit = true) :
    digitValue c = some (c.toNat - '0'.toNat) := by
  have hrange : 0x30 ≤ c.toNat ∧ c.toNat < 0x30 + 10 := by
    unfold Char.isDigit at h
    rw [Bool.and_eq_true, decide_eq_true_eq, decide_eq_true_eq] at h
    have hlow : 0x30 ≤ c.toNat := h.1
    have hhigh : c.toNat ≤ 0x39 := h.2
    omega
  unfold digitValue Regex.decimalZeros
  rw [List.find?_cons_of_pos (by rw [decide_eq_true_eq]; exact hrange)]
  rfl

theorem readDigits_toDigits (n : ℕ) : readDigits (Nat.toDigits 10 n) = some n := by
  have h (t : Text) (ht : ∀ c ∈ t, c.isDigit = true) (k : ℕ) :
      t.foldlM (fun n c => (digitValue c).map (10 * n + ·)) k = some (Nat.ofDigitChars 10 t k) := by
    induction t generalizing k with
    | nil => rw [Nat.ofDigitChars_nil, List.foldlM_nil]; rfl
    | cons c t ih =>
      rw [List.foldlM_cons, digitValue_of_isDigit (ht c List.mem_cons_self), Nat.ofDigitChars_cons]
      exact ih (fun c hc => ht c (List.mem_cons_of_mem _ hc)) _
  rw [readDigits, h _ (fun c hc => Nat.isDigit_of_mem_toDigits (by decide) (by decide) hc),
    Nat.ofDigitChars_ten_toDigits]

theorem not_isSpace_of_isDigit {c : Char} (h : c.isDigit = true) : isSpace c = false := by
  unfold Char.isDigit at h
  rw [Bool.and_eq_true, decide_eq_true_eq, decide_eq_true_eq] at h
  have hlow : 0x30 ≤ c.toNat := h.1
  have hhigh : c.toNat ≤ 0x39 := h.2
  simp [isSpace]
  omega

/-- A number is read from its digits. -/
theorem readInt_toDigits (n : ℕ) : readInt (Nat.toDigits 10 n) = some (n : ℤ) := by
  have hdigit (c : Char) (hc : c ∈ Nat.toDigits 10 n) : c.isDigit = true :=
    Nat.isDigit_of_mem_toDigits (by decide) (by decide) hc
  have hstrip : strip (Nat.toDigits 10 n) = Nat.toDigits 10 n :=
    strip_eq_self ⟨fun c hc => not_isSpace_of_isDigit (hdigit c (List.mem_of_mem_head? hc)),
      fun c hc => not_isSpace_of_isDigit (hdigit c (List.mem_of_mem_getLast? hc))⟩
  have hsplit : (Nat.toDigits 10 n).splitOn '_' = [Nat.toDigits 10 n] := by
    have h : (Nat.toDigits 10 n ++ []).splitOn '_' = _ :=
      splitOn_append Nat.underscore_not_in_toDigits []
    rwa [List.append_nil, List.splitOn_nil, List.modifyHead_cons, List.append_nil] at h
  have hnat : readNat (Nat.toDigits 10 n) = some n := by
    rw [readNat, hsplit, if_neg (by simp), List.flatten_singleton,
      readDigits_toDigits]
  unfold readInt
  rw [hstrip]
  obtain ⟨c, t, hct⟩ := List.exists_cons_of_ne_nil (Nat.toDigits_ne_nil (n := n) (b := 10))
  rw [hct] at hnat hdigit ⊢
  have hc := hdigit c List.mem_cons_self
  split
  · rename_i heq
    rw [(List.cons.inj heq).1] at hc
    cases hc
  · rename_i heq
    rw [(List.cons.inj heq).1] at hc
    cases hc
  · rw [hnat]
    rfl

end FlsunT1.Library.Text
