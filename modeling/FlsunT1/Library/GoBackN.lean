/-
  Library/GoBackN.lean --- a sliding window over links that keep their order.

  A sender numbers its frames and sends at most `width` of them ahead of the last
  acknowledgement; it may send all of those again at any time.  A receiver takes
  the frame it waits for and no other, and replies with the number it waits for.
  Frames and replies may be lost on the way, but do not overtake each other.

  The invariant bounds every number in flight around the number the other side
  waits for, so that numbers sent modulo more than `width` still tell them apart.
-/
import Mathlib.Data.Int.ModEq
import Mathlib.Data.List.Pairwise
import Mathlib.Data.List.Range
import Mathlib.Tactic.Linarith

set_option autoImplicit false

namespace FlsunT1.Library

/-- The numbers of the two sides and of what is in flight between them: all frames
before `base` are known to be received, `next` is the number the receiver waits
for, `send` the number of the next new frame. -/
structure Window where
  base : Int
  next : Int
  send : Int
  frames : List Int
  acks : List Int
  deriving DecidableEq, Repr

namespace Window

/-- The numbers from `a` on, up to before `b`. -/
def between (a b : Int) : List Int := (List.range (b - a).toNat).map fun i : Nat => a + i

theorem mem_between {a b x : Int} : x ∈ between a b ↔ a ≤ x ∧ x < b := by
  simp only [between, List.mem_map, List.mem_range]
  constructor
  · rintro ⟨i, hi, rfl⟩
    omega
  · intro h
    exact ⟨(x - a).toNat, by omega, by omega⟩

/-- The events of the protocol. -/
inductive Step (width : Int) : Window → Window → Prop
  | send {w : Window} (h : w.send < w.base + width) :
      Step width w { w with send := w.send + 1, frames := w.frames ++ [w.send] }
  | resend {w : Window} :
      Step width w { w with frames := w.frames ++ between w.base w.send }
  | accept {w : Window} {rest : List Int} (h : w.frames = w.next :: rest) :
      Step width w { w with next := w.next + 1, frames := rest }
  | reply {w : Window} : Step width w { w with acks := w.acks ++ [w.next] }
  | ack {w : Window} {a : Int} {rest : List Int} (h : w.acks = a :: rest) :
      Step width w { w with base := a, acks := rest }
  | lose {w : Window} {frames acks : List Int} (hframes : frames.Sublist w.frames)
      (hacks : acks.Sublist w.acks) : Step width w { w with frames := frames, acks := acks }

/-- The numbers in flight are close to those waited for. -/
structure Bounded (width : Int) (w : Window) : Prop where
  base_le : w.base ≤ w.next
  next_le : w.next ≤ w.send
  send_le : w.send ≤ w.base + width
  frames : ∀ f ∈ w.frames, w.next ≤ f + width ∧ f < w.send
  /-- A frame was sent when those ahead of it were in the window. -/
  behind : w.frames.Pairwise fun g f => g < f + width
  acks : ∀ a ∈ w.acks, w.base ≤ a ∧ a ≤ w.next
  sorted : w.acks.Pairwise (· ≤ ·)

/-- Nothing sent and nothing in flight. -/
theorem Bounded.init {width : Int} (hwidth : 0 ≤ width) (n : Int) :
    Bounded width { base := n, next := n, send := n, frames := [], acks := [] } where
  base_le := le_refl n
  next_le := le_refl n
  send_le := by simp only; omega
  frames := by simp
  behind := List.Pairwise.nil
  acks := by simp
  sorted := List.Pairwise.nil

/-- Every event keeps the numbers in flight close. -/
theorem Bounded.step {width : Int} {w w' : Window} (hwidth : 0 < width) (h : Bounded width w)
    (hstep : Step width w w') : Bounded width w' := by
  have hbase := h.base_le
  have hnext := h.next_le
  have hsend := h.send_le
  cases hstep with
  | send hroom =>
    refine ⟨hbase, by simp only; omega, by simp only; omega, ?_, ?_, h.acks, h.sorted⟩
    · intro f hf
      simp only
      rcases List.mem_append.mp hf with hf | hf
      · have := h.frames f hf
        omega
      · rw [List.mem_singleton] at hf
        omega
    · refine List.pairwise_append.mpr ⟨h.behind, List.pairwise_singleton _ _, ?_⟩
      intro g hg f hf
      rw [List.mem_singleton] at hf
      have := h.frames g hg
      omega
  | resend =>
    refine ⟨hbase, hnext, hsend, ?_, ?_, h.acks, h.sorted⟩
    · intro f hf
      simp only
      rcases List.mem_append.mp hf with hf | hf
      · exact h.frames f hf
      · rw [mem_between] at hf
        omega
    · refine List.pairwise_append.mpr ⟨h.behind, ?_, ?_⟩
      · refine List.pairwise_of_forall_mem_list fun g hg f hf => ?_
        rw [mem_between] at hg hf
        omega
      · intro g hg f hf
        have := h.frames g hg
        rw [mem_between] at hf
        omega
  | @accept rest hhead =>
    have hframes := h.frames
    have hbehind := h.behind
    rw [hhead] at hframes hbehind
    obtain ⟨hafter, hrest⟩ := List.pairwise_cons.mp hbehind
    have hlt := (hframes w.next (by simp)).2
    refine ⟨by simp only; omega, by simp only; omega, hsend, ?_, hrest, ?_, h.sorted⟩
    · intro f hf
      have h1 := hframes f (List.mem_cons_of_mem _ hf)
      have h2 := hafter f hf
      simp only
      omega
    · intro a ha
      have := h.acks a ha
      simp only
      omega
  | reply =>
    refine ⟨hbase, hnext, hsend, h.frames, h.behind, ?_, ?_⟩
    · intro a ha
      simp only
      rcases List.mem_append.mp ha with ha | ha
      · exact h.acks a ha
      · rw [List.mem_singleton] at ha
        omega
    · refine List.pairwise_append.mpr ⟨h.sorted, List.pairwise_singleton _ _, ?_⟩
      intro a ha b hb
      rw [List.mem_singleton] at hb
      have := h.acks a ha
      omega
  | @ack a rest hhead =>
    have hacks := h.acks
    have hsorted := h.sorted
    rw [hhead] at hacks hsorted
    obtain ⟨hafter, hrest⟩ := List.pairwise_cons.mp hsorted
    have ha := hacks a (by simp)
    refine ⟨ha.2, hnext, by simp only; omega, h.frames, h.behind, ?_, hrest⟩
    intro b hb
    exact ⟨hafter b hb, (hacks b (List.mem_cons_of_mem _ hb)).2⟩
  | lose hframes hacks =>
    exact ⟨hbase, hnext, hsend, fun f hf => h.frames f (hframes.subset hf),
      h.behind.sublist hframes, fun a ha => h.acks a (hacks.subset ha), h.sorted.sublist hacks⟩

/-- The receiver tells the frame it waits for by its number modulo more than the
width of the window. -/
theorem Bounded.frame_eq {width modulus : Int} {w : Window} (h : Bounded width w)
    (hmod : width < modulus) {f : Int} (hf : f ∈ w.frames)
    (heq : f % modulus = w.next % modulus) : f = w.next := by
  have hframe := h.frames f hf
  have hbase := h.base_le
  have hsend := h.send_le
  obtain ⟨k, hk⟩ := Int.ModEq.dvd heq
  have hk0 : k = 0 := by
    by_contra hne
    rcases lt_or_gt_of_ne hne with hneg | hpos
    · have : modulus * k ≤ -modulus := by nlinarith
      omega
    · have : modulus ≤ modulus * k := by nlinarith
      omega
  rw [hk0, mul_zero] at hk
  omega

/-- The sender tells how far the receiver is from the number of a reply modulo more
than the width: the number is the first one from `base` on. -/
theorem Bounded.ack_range {width : Int} {w : Window} (h : Bounded width w) {a : Int}
    (ha : a ∈ w.acks) : w.base ≤ a ∧ a ≤ w.send ∧ a ≤ w.base + width := by
  have hack := h.acks a ha
  have hnext := h.next_le
  have hsend := h.send_le
  omega

end Window

end FlsunT1.Library
