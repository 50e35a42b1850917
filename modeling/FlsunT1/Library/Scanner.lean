/-
  Library/Scanner.lean --- scanning a stream that arrives in pieces.

  A scanner looks at the bytes that are buffered, reports something and says how
  many of them it has consumed; when it consumes none it waits for more.  What it
  finds must not depend on how the stream is cut.  The rule here reduces that to
  one call: the scanner `Reads` a specification, a function of the whole stream,
  when every call agrees with it whatever bytes come later.
-/
import Mathlib.Data.List.Basic

set_option autoImplicit false

namespace FlsunT1.Library

variable {σ α ω β : Type*}

/-- What one call of a scanner gives: its state, the number of bytes consumed, and a
report. -/
structure Scanned (σ ω : Type*) where
  state : σ
  consumed : Nat
  report : ω

/-- The items found by `check`, as `item` takes them from the reports, are those that
`spec` finds in the stream: a call that waits leaves nothing to be found yet, and a call
that consumes bytes finds what `spec` finds in them, whatever follows. -/
structure Reads (check : σ → List α → Scanned σ ω) (item : ω → Option β)
    (spec : σ → List α → List β) : Prop where
  bounded : ∀ s buf, (check s buf).consumed ≤ buf.length
  wait : ∀ s buf, (check s buf).consumed = 0 →
    (check s buf).state = s ∧ item (check s buf).report = none
  step : ∀ s buf, 0 < (check s buf).consumed → ∀ rest,
    spec s (buf ++ rest) = (item (check s buf).report).toList ++
      spec (check s buf).state (buf.drop (check s buf).consumed ++ rest)

/-! ## A buffered scanner -/

/-- A scanner with the bytes that it has not consumed and its reports so far. -/
structure Buffered (σ α ω : Type*) where
  state : σ
  pending : List α
  log : List ω

/-- Bytes arrive, or the scanner is called on what is buffered, up to some limit. -/
inductive Input (α : Type*)
  | receive (bytes : List α)
  | poll (limit : Nat)

/-- The bytes that arrive by an input. -/
def Input.bytes : Input α → List α
  | .receive bytes => bytes
  | .poll _ => []

namespace Buffered

variable {check : σ → List α → Scanned σ ω} {item : ω → Option β} {spec : σ → List α → List β}

/-- One input. -/
def next (check : σ → List α → Scanned σ ω) (b : Buffered σ α ω) : Input α → Buffered σ α ω
  | .receive bytes => { b with pending := b.pending ++ bytes }
  | .poll limit =>
      let r := check b.state (b.pending.take limit)
      { state := r.state
        pending := b.pending.drop r.consumed
        log := b.log ++ [r.report] }

/-- The items found so far. -/
def found (item : ω → Option β) (b : Buffered σ α ω) : List β := b.log.filterMap item

/-- A call adds the item that it finds. -/
theorem found_next_poll (b : Buffered σ α ω) (limit : Nat) :
    found item (b.next check (.poll limit)) =
      found item b ++ (item (check b.state (b.pending.take limit)).report).toList := by
  rw [found, found, next, List.filterMap_append]
  cases hitem : item (check b.state (b.pending.take limit)).report <;> simp [hitem]

/-- A call on a prefix of the buffer takes its items from the front of the stream. -/
theorem found_poll (h : Reads check item spec) (b : Buffered σ α ω) (limit : Nat)
    (rest : List α) :
    found item (b.next check (.poll limit)) ++
        spec (b.next check (.poll limit)).state ((b.next check (.poll limit)).pending ++ rest) =
      found item b ++ spec b.state (b.pending ++ rest) := by
  have hle := h.bounded b.state (b.pending.take limit)
  rw [found_next_poll, List.append_assoc, List.append_cancel_left_eq]
  simp only [next]
  rcases Nat.eq_zero_or_pos (check b.state (b.pending.take limit)).consumed with h0 | hpos
  · obtain ⟨hstate, hitem⟩ := h.wait _ _ h0
    simp [h0, hstate, hitem]
  · have hstep := h.step _ _ hpos (b.pending.drop limit ++ rest)
    rw [← List.append_assoc, List.take_append_drop, ← List.append_assoc,
      ← List.drop_append_of_le_length hle, List.take_append_drop] at hstep
    exact hstep.symm

/-- What was found and what the stream still holds is what it held at the start. -/
theorem found_foldl (h : Reads check item spec) (inputs : List (Input α)) (b : Buffered σ α ω)
    (rest : List α) :
    found item (inputs.foldl (next check) b) ++
        spec (inputs.foldl (next check) b).state ((inputs.foldl (next check) b).pending ++ rest) =
      found item b ++ spec b.state (b.pending ++ (inputs.flatMap Input.bytes ++ rest)) := by
  induction inputs generalizing b with
  | nil => simp
  | cons input inputs ih =>
    rw [List.foldl_cons, ih]
    cases input with
    | receive bytes => simp [found, next, Input.bytes]
    | poll limit => simp [Input.bytes, found_poll h b limit]

/-- A scanner with nothing left to find in its buffer has found all that the stream
holds. -/
theorem found_all (h : Reads check item spec) {inputs : List (Input α)} {s : σ}
    (hidle : spec (inputs.foldl (next check) ⟨s, [], []⟩).state
      (inputs.foldl (next check) ⟨s, [], []⟩).pending = []) :
    found item (inputs.foldl (next check) ⟨s, [], []⟩) =
      spec s (inputs.flatMap Input.bytes) := by
  have hall := found_foldl h inputs ⟨s, [], []⟩ []
  simpa [hidle, found] using hall

end Buffered

/-! ## Calling until the scanner waits -/

/-- Calls on the whole buffer until one waits, in at most `rounds` rounds. -/
def drain (check : σ → List α → Scanned σ ω) :
    Nat → Buffered σ α ω → Buffered σ α ω
  | 0, b => b
  | rounds + 1, b =>
      let b' := b.next check (.poll b.pending.length)
      if (check b.state b.pending).consumed = 0 then b' else drain check rounds b'

/-- As many rounds as there are bytes, and one, end with a call that waits. -/
theorem drain_waits {check : σ → List α → Scanned σ ω} {item : ω → Option β}
    {spec : σ → List α → List β} (h : Reads check item spec) (rounds : Nat)
    (b : Buffered σ α ω) (hrounds : b.pending.length < rounds) :
    (check (drain check rounds b).state (drain check rounds b).pending).consumed = 0 := by
  induction rounds generalizing b with
  | zero => omega
  | succ rounds ih =>
    have hpoll : b.next check (.poll b.pending.length) =
        { state := (check b.state b.pending).state
          pending := b.pending.drop (check b.state b.pending).consumed
          log := b.log ++ [(check b.state b.pending).report] } := by
      simp [Buffered.next]
    rw [drain, hpoll]
    by_cases h0 : (check b.state b.pending).consumed = 0
    · simp [h0, (h.wait _ _ h0).1]
    · have hle := h.bounded b.state b.pending
      rw [if_neg h0]
      apply ih
      simp only [List.length_drop]
      omega

/-- Draining is a sequence of calls. -/
theorem drain_eq_foldl (check : σ → List α → Scanned σ ω) (rounds : Nat) (b : Buffered σ α ω) :
    ∃ polls : List (Input α), polls.flatMap Input.bytes = [] ∧
      drain check rounds b = polls.foldl (Buffered.next check) b := by
  induction rounds generalizing b with
  | zero => exact ⟨[], rfl, rfl⟩
  | succ rounds ih =>
    rw [drain]
    split
    · exact ⟨[.poll b.pending.length], rfl, rfl⟩
    · obtain ⟨polls, hbytes, heq⟩ := ih (b.next check (.poll b.pending.length))
      exact ⟨.poll b.pending.length :: polls, by simpa [Input.bytes] using hbytes, heq⟩

end FlsunT1.Library
