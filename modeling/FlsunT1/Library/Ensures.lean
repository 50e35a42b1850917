/-
  Library/Ensures.lean --- what holds of the result of a call that returns.

  The postcondition rules for code that may fail, one for each way such calls are
  put together.
-/
import Mathlib.Logic.Basic

set_option autoImplicit false

namespace FlsunT1.Library

variable {ε α β : Type*}

/-- If the call returns, `P` holds of what it returns. -/
def Ensures (P : α → Prop) (r : Except ε α) : Prop := ∀ a, r = .ok a → P a

namespace Ensures

variable {P : α → Prop} {Q : β → Prop} {r r' : Except ε α}

theorem ok {a : α} (h : P a) : Ensures P (.ok a : Except ε α) := by
  intro b hb
  rw [Except.ok.injEq] at hb
  exact hb ▸ h

theorem error (e : ε) : Ensures P (.error e) := by
  intro b hb
  cases hb

theorem bind {f : α → Except ε β} (h : Ensures P r) (hf : ∀ a, P a → Ensures Q (f a)) :
    Ensures Q (r.bind f) := by
  cases r with
  | error e => exact error e
  | ok a => exact hf a (h a rfl)

theorem map {f : α → β} (h : Ensures P r) (hf : ∀ a, P a → Q (f a)) : Ensures Q (r.map f) := by
  cases r with
  | error e => exact error e
  | ok a => exact ok (hf a (h a rfl))

theorem mono {P' : α → Prop} (h : Ensures P r) (himp : ∀ a, P a → P' a) : Ensures P' r :=
  fun a ha => himp a (h a ha)

theorem ite {c : Prop} [Decidable c] (h : c → Ensures P r) (h' : ¬c → Ensures P r') :
    Ensures P (if c then r else r') := by
  split
  · exact h ‹_›
  · exact h' ‹_›

/-- A loop whose body keeps `P`. -/
theorem foldlM {σ : Type*} {P : σ → Prop} {f : σ → α → Except ε σ} {l : List α}
    (h : ∀ a ∈ l, ∀ s, P s → Ensures P (f s a)) {s : σ} (hs : P s) : Ensures P (l.foldlM f s) := by
  induction l generalizing s with
  | nil => exact ok hs
  | cons a l ih =>
    rw [List.foldlM_cons]
    exact (h a List.mem_cons_self s hs).bind fun t ht =>
      ih (fun b hb => h b (List.mem_cons_of_mem _ hb)) ht

end Ensures

/-- A sequence of calls returns when each of them does. -/
theorem bind_eq_ok {α β : Type} {r : Except ε α} {f : α → Except ε β} {b : β} :
    (r >>= f) = .ok b ↔ ∃ a, r = .ok a ∧ f a = .ok b := by
  cases r with
  | error e => simp [bind, Except.bind]
  | ok a => simp [bind, Except.bind]

end FlsunT1.Library
