/-
  Library/Fuel.lean --- loops that are given fuel.

  A loop of a program is written here as a function of a number of rounds, with
  `none` when they run out.  `Computes f a` says that the rounds do not matter:
  `f` never gives anything but `a`, and gives `a` whenever it has enough of them.
-/
import Mathlib.Data.Option.Basic
import Mathlib.Order.Basic

set_option autoImplicit false

namespace FlsunT1.Library

variable {α β : Type*}

/-- With enough fuel `f` gives `a`, and with less either `a` or nothing. -/
structure Computes (f : Nat → Option α) (a : α) : Prop where
  only : ∀ n b, f n = some b → b = a
  enough : ∃ N, ∀ n, N ≤ n → f n = some a

namespace Computes

/-- A function that does not look at its fuel. -/
theorem pure (a : α) : Computes (fun _ => some a) a :=
  ⟨fun _ _ h => (Option.some.inj h).symm, 0, fun _ _ => rfl⟩

/-- One computation after another. -/
theorem bind {f : Nat → Option α} {g : Nat → α → Option β} {a : α} {b : β}
    (hf : Computes f a) (hg : Computes (fun n => g n a) b) :
    Computes (fun n => (f n).bind (g n)) b := by
  constructor
  · intro n c hc
    obtain ⟨a', ha', hc⟩ := Option.bind_eq_some_iff.mp hc
    rw [hf.only n a' ha'] at hc
    exact hg.only n c hc
  · obtain ⟨N, hN⟩ := hf.enough
    obtain ⟨M, hM⟩ := hg.enough
    refine ⟨max N M, fun n hn => ?_⟩
    rw [hN n (Nat.le_trans (Nat.le_max_left _ _) hn)]
    exact hM n (Nat.le_trans (Nat.le_max_right _ _) hn)

/-- A result of a computation, carried on. -/
theorem map {f : Nat → Option α} {a : α} (g : α → β) (hf : Computes f a) :
    Computes (fun n => (f n).map g) (g a) := by
  constructor
  · intro n c hc
    obtain ⟨a', ha', hc⟩ := Option.map_eq_some_iff.mp hc
    rw [← hc, hf.only n a' ha']
  · obtain ⟨N, hN⟩ := hf.enough
    exact ⟨N, fun n hn => by rw [hN n hn]; rfl⟩

/-- A round of a loop that goes on costs one unit of fuel. -/
theorem succ {f g : Nat → Option α} {a : α} (hzero : f 0 = none) (hsucc : ∀ n, f (n + 1) = g n)
    (hg : Computes g a) : Computes f a := by
  constructor
  · intro n b hb
    cases n with
    | zero => rw [hzero] at hb; cases hb
    | succ n => rw [hsucc] at hb; exact hg.only n b hb
  · obtain ⟨N, hN⟩ := hg.enough
    refine ⟨N + 1, fun n hn => ?_⟩
    obtain ⟨m, rfl⟩ : ∃ m, n = m + 1 := ⟨n - 1, by omega⟩
    rw [hsucc]
    exact hN m (by omega)

/-- Some amount of fuel is enough. -/
theorem exists_eq_some {f : Nat → Option α} {a : α} (h : Computes f a) : ∃ n, f n = some a := by
  obtain ⟨N, hN⟩ := h.enough
  exact ⟨N, hN N (Nat.le_refl _)⟩

end Computes

end FlsunT1.Library
