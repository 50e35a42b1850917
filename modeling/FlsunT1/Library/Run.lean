/-
  Library/Run.lean --- runs of a labelled transition relation.

  A system is given by its step relation alone.  A run is a finite sequence of
  events that the relation admits one after another; every safety result of the
  development is an invariant of runs and is obtained from one of the three
  rules proved here, so the induction over runs is made in this file only.
-/
import Mathlib.Data.List.Basic

set_option autoImplicit false

namespace FlsunT1.Library

variable {σ ε τ : Type*}

/-- `Run step s es t`: the events `es`, taken in order from `s`, lead to `t`. -/
inductive Run (step : σ → ε → σ → Prop) (s : σ) : List ε → σ → Prop
  | nil : Run step s [] s
  | snoc {t u : σ} {es : List ε} {e : ε} :
      Run step s es t → step t e u → Run step s (es ++ [e]) u

/-- A call returns when its result is a value. -/
theorem toOption_eq_some {α : Type*} {r : Except ε α} {a : α} :
    r.toOption = some a ↔ r = .ok a := by
  cases r <;> simp [Except.toOption]

namespace Run

variable {step : σ → ε → σ → Prop} {s t u : σ} {es es' : List ε} {e : ε}

/-- A single step is a run. -/
theorem single (h : step s e t) : Run step s [e] t :=
  .snoc .nil h

/-- Runs compose. -/
theorem append (h : Run step s es t) (h' : Run step t es' u) : Run step s (es ++ es') u := by
  induction h' with
  | nil => simpa using h
  | snoc _ hstep ih => simpa [List.append_assoc] using Run.snoc ih hstep

/-- A run that starts with the event `e` begins with a step on `e`. -/
theorem cons (h : step s e t) (h' : Run step t es u) : Run step s (e :: es) u :=
  append (single h) h'

/-- The invariant rule: what holds initially and is kept by every step holds
after every run. -/
theorem invariant {P : σ → Prop} (h : Run step s es t) (hinit : P s)
    (hstep : ∀ s e t, P s → step s e t → P t) : P t := by
  induction h with
  | nil => exact hinit
  | snoc _ hs ih => exact hstep _ _ _ ih hs

/-- A run of a system is one of every system that admits its steps. -/
theorem mono {step' : σ → ε → σ → Prop} (h : Run step s es t)
    (himp : ∀ s e t, step s e t → step' s e t) : Run step' s es t := by
  induction h with
  | nil => exact .nil
  | snoc _ hs ih => exact .snoc ih (himp _ _ _ hs)

/-- What holds of every event of a run holds at each of its steps. -/
theorem and_events {C : ε → Prop} (h : Run step s es t) (hes : ∀ e ∈ es, C e) :
    Run (fun s e t => step s e t ∧ C e) s es t := by
  induction h with
  | nil => exact .nil
  | snoc _ hs ih =>
    refine .snoc (ih fun e he => hes e (List.mem_append_left _ he)) ⟨hs, ?_⟩
    exact hes _ (List.mem_append_right _ List.mem_cons_self)

/-- A run on no events stays where it is. -/
theorem eq_of_nil (h : Run step s [] t) : t = s := by
  generalize hes : ([] : List ε) = all at h
  cases h with
  | nil => rfl
  | snoc => exact absurd hes.symm (List.append_ne_nil_of_right_ne_nil _ (List.cons_ne_nil _ _))

/-- A run on events that end with `e` ends with a step on `e`. -/
theorem exists_last (es : List ε) (h : Run step s (es ++ [e]) t) :
    ∃ u, Run step s es u ∧ step u e t := by
  generalize hes : es ++ [e] = all at h
  cases h with
  | nil => exact absurd hes (List.append_ne_nil_of_right_ne_nil _ (List.cons_ne_nil _ _))
  | snoc hrun hstep =>
    obtain ⟨rfl, rfl⟩ := List.append_singleton_inj.mp hes
    exact ⟨_, hrun, hstep⟩

/-- The simulation rule: a relation between a system and a second system run on
the same events, which holds initially and is kept by every pair of matching
steps, holds after every run, and the second system can always follow. -/
theorem simulation {step' : τ → ε → τ → Prop} {R : σ → τ → Prop} {a : τ}
    (h : Run step s es t) (hinit : R s a)
    (hstep : ∀ s e t a, R s a → step s e t → ∃ b, step' a e b ∧ R t b) :
    ∃ b, Run step' a es b ∧ R t b := by
  induction h with
  | nil => exact ⟨a, .nil, hinit⟩
  | snoc _ hs ih =>
    obtain ⟨b, hrun, hb⟩ := ih
    obtain ⟨c, hc, hR⟩ := hstep _ _ _ _ hb hs
    exact ⟨c, .snoc hrun hc, hR⟩

/-- The rule for steps that are themselves checked at every state they leave:
in every run, the property `P` of a step holds at each step taken. -/
theorem forall_steps {Inv : σ → Prop} {P : σ → ε → σ → Prop} (h : Run step s es t)
    (hinit : Inv s) (hstep : ∀ s e t, Inv s → step s e t → Inv t)
    (hP : ∀ s e t, Inv s → step s e t → P s e t) :
    Run (fun s e t => step s e t ∧ P s e t) s es t := by
  induction h with
  | nil => exact .nil
  | snoc hr hs ih =>
    exact .snoc ih ⟨hs, hP _ _ _ (hr.invariant hinit hstep) hs⟩

/-- The rule for an exact condition: where `Q` of a step comes to the condition `C` before
it, as long as `P` holds, a run has `Q` at each of its steps if and only if it meets `C`
at each. -/
theorem restrict_iff {P : σ → Prop} {Q : σ → ε → σ → Prop} {C : σ → ε → Prop} (hinit : P s)
    (hstep : ∀ s e t, P s → step s e t → (Q s e t ↔ C s e))
    (hP : ∀ s e t, P s → step s e t → Q s e t → P t) :
    Run (fun s e t => step s e t ∧ Q s e t) s es t ↔
      Run (fun s e t => step s e t ∧ C s e) s es t := by
  constructor
  · intro h
    suffices Run (fun s e t => step s e t ∧ C s e) s es t ∧ P t from this.1
    induction h with
    | nil => exact ⟨.nil, hinit⟩
    | snoc _ hs ih =>
      have hc := (hstep _ _ _ ih.2 hs.1).mp hs.2
      exact ⟨.snoc ih.1 ⟨hs.1, hc⟩, hP _ _ _ ih.2 hs.1 hs.2⟩
  · intro h
    suffices Run (fun s e t => step s e t ∧ Q s e t) s es t ∧ P t from this.1
    induction h with
    | nil => exact ⟨.nil, hinit⟩
    | snoc _ hs ih =>
      have hq := (hstep _ _ _ ih.2 hs.1).mpr hs.2
      exact ⟨.snoc ih.1 ⟨hs.1, hq⟩, hP _ _ _ ih.2 hs.1 hq⟩

/-- The runs of a partial function are what folding it over the events computes. -/
theorem iff_foldlM {f : σ → ε → Option σ} :
    Run (fun s e t => f s e = some t) s es t ↔ es.foldlM f s = some t := by
  constructor
  · intro h
    induction h with
    | nil => rfl
    | snoc _ hs ih => simp [List.foldlM_append, ih, hs]
  · induction es generalizing s with
    | nil => intro h; cases h; exact .nil
    | cons e es ih =>
      intro h
      rw [List.foldlM_cons] at h
      obtain ⟨u, hu, hrest⟩ := Option.bind_eq_some_iff.mp h
      exact .cons hu (ih hrest)

/-- The run of a function is what folding it over the events computes. -/
theorem iff_foldl {f : σ → ε → σ} :
    Run (fun s e t => t = f s e) s es t ↔ t = es.foldl f s := by
  constructor
  · intro h
    induction h with
    | nil => rfl
    | snoc _ hs ih => rw [List.foldl_append, ← ih, hs]; rfl
  · rintro rfl
    induction es generalizing s with
    | nil => exact .nil
    | cons e es ih => exact cons rfl ih

/-- A run that can be computed, to a state with the property `P`. -/
theorem exists_of_any {f : σ → ε → Option σ} {P : σ → Bool} {l : List ε}
    (h : (l.foldlM f s).any P = true) :
    ∃ t, Run (fun s e t => f s e = some t) s l t ∧ P t = true := by
  obtain ⟨t, ht, hP⟩ := (Option.any_eq_true _ _).mp h
  exact ⟨t, iff_foldlM.mpr ht, hP⟩

/-- A run of steps that are allowed and possible, by computation. -/
theorem exists_of_allowed {f : σ → ε → Option σ} {C : σ → ε → Prop} [∀ s e, Decidable (C s e)]
    {P : σ → Bool} {l : List ε}
    (h : (l.foldlM (fun s e => if C s e then f s e else none) s).any P = true) :
    ∃ t, Run (fun s e t => C s e ∧ f s e = some t) s l t ∧ P t = true := by
  obtain ⟨t, hrun, hP⟩ := exists_of_any h
  refine ⟨t, hrun.mono ?_, hP⟩
  intro s e t hstep
  split at hstep
  · rename_i hallowed
    exact ⟨hallowed, hstep⟩
  · cases hstep

/-- A run of calls that are allowed and return, by computation. -/
theorem exists_of_calls {φ : Type*} {f : σ → ε → Except φ σ} {C : σ → ε → Prop}
    [∀ s e, Decidable (C s e)] {P : σ → Bool} {l : List ε}
    (h : (l.foldlM (fun s e => if C s e then (f s e).toOption else none) s).any P = true) :
    ∃ t, Run (fun s e t => C s e ∧ f s e = .ok t) s l t ∧ P t = true := by
  obtain ⟨t, hrun, hP⟩ := exists_of_allowed h
  exact ⟨t, hrun.mono fun s e t hstep => ⟨hstep.1, toOption_eq_some.mp hstep.2⟩, hP⟩

/-- Each event of a list meets a condition on the state that a function leaves before it. -/
def checks (f : σ → ε → σ) (C : σ → ε → Prop) [∀ s e, Decidable (C s e)] : σ → List ε → Bool
  | _, [] => true
  | s, e :: l => decide (C s e) && checks f C (f s e) l

/-- A run of a function whose events meet a condition, by computation. -/
theorem of_checks {f : σ → ε → σ} {C : σ → ε → Prop} [∀ s e, Decidable (C s e)] {l : List ε}
    (h : checks f C s l = true) : Run (fun s e t => C s e ∧ t = f s e) s l (l.foldl f s) := by
  induction l generalizing s with
  | nil => exact .nil
  | cons e l ih =>
    obtain ⟨hc, hrest⟩ := Bool.and_eq_true_iff.mp h
    exact cons ⟨of_decide_eq_true hc, rfl⟩ (ih hrest)

end Run

end FlsunT1.Library
