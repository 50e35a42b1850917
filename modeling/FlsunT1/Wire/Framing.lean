/-
  Wire/Framing.lean --- both ends find the same message blocks.

  The host cuts the stream by its reads, the firmware by what has arrived when the
  console looks.  Neither has an influence on the blocks that are found.
-/
import FlsunT1.Wire.ConsoleInput
import FlsunT1.Wire.HostInput

set_option autoImplicit false

namespace FlsunT1.Wire

open FlsunT1.Library

/-- Framing does not depend on how the stream is cut, and both receivers agree on it: the
host finds the same blocks with any reads, a console finds these once its call returns 0,
every other call consumes at least one byte, and the garbage between two blocks is
answered by one nak at most. -/
theorem framing_agrees {reads reads' : List Bytes} {inputs : List (Input UInt8)}
    {w : Buffered FindState UInt8 FindResult} {limit : Nat}
    (hreads : reads'.flatten = reads.flatten)
    (hinputs : inputs.flatMap Input.bytes = reads.flatten)
    (hw : inputs.foldl (Buffered.next consoleScan) ⟨FindState.init, [], []⟩ = w)
    (hlimit : min w.pending.length messageMax ≤ limit)
    (hidle : (commandFindBlock w.state (w.pending.take limit)).2.ret = 0) :
    (reads'.foldl inputEvent .alloc).handled = (reads.foldl inputEvent .alloc).handled ∧
      w.found FindResult.block = (reads.foldl inputEvent .alloc).handled ∧
      (∀ needSync buf, (msgblockCheck needSync buf).1 ≠ 0 →
        1 ≤ (msgblockCheck needSync buf).1.natAbs ∧
          (msgblockCheck needSync buf).1.natAbs ≤ buf.length) ∧
      (∀ s buf, (commandFindBlock s buf).2.ret ≠ 0 → 1 ≤ (commandFindBlock s buf).2.popCount) ∧
      ∀ pre mid post, w.log = pre ++ mid ++ post → NoBlock mid → naks mid ≤ 1 := by
  refine ⟨?_, ?_, ?_, ?_, ?_⟩
  · rw [inputEvents_handled, inputEvents_handled, hreads]
  · rw [inputEvents_handled, ← hinputs]
    exact console_found hw hlimit hidle
  · intro needSync buf h
    exact msgblockCheck_consumes h
  · intro s buf h
    rcases commandFindBlock_pops s buf with hmore | ⟨-, hpos⟩
    · rw [hmore] at h
      exact absurd rfl h
    · exact hpos
  · subst hw
    exact (console_nakOnce inputs .init).between

/-- Garbage, a block, garbage that looks like a header, and a block. -/
def noisyStream : Bytes :=
  [1, 2, 126] ++ [5, 16, 158, 129, 126] ++ [7, 17, 0, 126, 9, 9, 9, 126] ++ [5, 17, 143, 8, 126]

/-- The stream arrives at once, and the console looks at it five times. -/
def noisyInputs : List (Input UInt8) := .receive noisyStream :: List.replicate 5 (.poll 64)

/-- The noisy stream, read by the host in pieces of one and of twenty bytes. -/
theorem framing_agrees_noisy :
    ([[1], noisyStream.drop 1].foldl inputEvent .alloc).handled =
        ([noisyStream].foldl inputEvent .alloc).handled ∧
      ([noisyStream].foldl inputEvent .alloc).handled =
        [[5, 16, 158, 129, 126], [5, 17, 143, 8, 126]] := by
  have hreads : [[1], noisyStream.drop 1].flatten = [noisyStream].flatten := rfl
  have hinputs : noisyInputs.flatMap Input.bytes = [noisyStream].flatten := rfl
  have hlimit : min (noisyInputs.foldl (Buffered.next consoleScan)
      ⟨FindState.init, [], []⟩).pending.length messageMax ≤ 64 := Nat.min_le_right _ _
  have hidle : (commandFindBlock (noisyInputs.foldl (Buffered.next consoleScan)
      ⟨FindState.init, [], []⟩).state ((noisyInputs.foldl (Buffered.next consoleScan)
      ⟨FindState.init, [], []⟩).pending.take 64)).2.ret = 0 := by
    decide +kernel
  exact ⟨(framing_agrees hreads hinputs rfl hlimit hidle).1, by decide +kernel⟩

end FlsunT1.Wire
