/-
  Library/Monitor.lean --- monitors of traces.

  A monitor reads the actions of a system one after another.  It keeps what it has to know of those
  before, and says which action is allowed next.
-/
import Mathlib.Data.List.Basic

set_option autoImplicit false

namespace FlsunT1.Library

/-- What is known after some actions, and which action is allowed then. -/
structure Monitor (σ α : Type*) where
  next : σ → α → σ
  ok : σ → α → Prop

namespace Monitor

variable {σ α : Type*} (m : Monitor σ α)

/-- What is known after a trace. -/
def after (s : σ) (trace : List α) : σ := trace.foldl m.next s

/-- Each action of a trace is allowed where it stands. -/
def Accepts : σ → List α → Prop
  | _, [] => True
  | s, a :: trace => m.ok s a ∧ Accepts (m.next s a) trace

variable {m} {s : σ} {trace trace' : List α}

theorem after_append : m.after s (trace ++ trace') = m.after (m.after s trace) trace' :=
  List.foldl_append

theorem accepts_append :
    m.Accepts s (trace ++ trace') ↔ m.Accepts s trace ∧ m.Accepts (m.after s trace) trace' := by
  induction trace generalizing s with
  | nil => exact (and_iff_right trivial).symm
  | cons a trace ih => rw [List.cons_append, Accepts, Accepts, ih, and_assoc]; rfl

/-- A trace is accepted exactly if each of its actions is allowed after those before it. -/
theorem accepts_iff :
    m.Accepts s trace ↔ ∀ before a behind, trace = before ++ a :: behind →
      m.ok (m.after s before) a := by
  constructor
  · rintro h before a behind rfl
    exact (accepts_append.mp h).2.1
  · intro h
    induction trace generalizing s with
    | nil => trivial
    | cons a trace ih =>
      refine ⟨h [] a trace rfl, ih fun before b behind hsplit => ?_⟩
      exact h (a :: before) b behind (congrArg (a :: ·) hsplit)

end Monitor

end FlsunT1.Library
