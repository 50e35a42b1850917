/-
  Chelper/Trdispatch.lean --- the homing timeouts of several mcus (trdispatch.c).

  Source: klipper/klippy/chelper/trdispatch.c, with `clock_from_clock32` of msgblock.c.  The
  handler and the sections of `trdispatch_start` and `trdispatch_stop` under the lock are one
  event each; the fast readers are added and removed between them.

  Times are values of a linear order, and a clock estimate is a pair of conversions between
  the clock of its mcu and these times.
-/
import FlsunT1.Library.Run
import FlsunT1.Library.Word
import Mathlib.Data.List.FinRange
import Mathlib.Data.List.Induction
import Mathlib.Algebra.Order.Floor.Semiring
import Mathlib.Data.Rat.Floor
import Mathlib.Order.Bounds.Basic

set_option autoImplicit false

namespace FlsunT1.Chelper

open Library

/-! ## Clocks -/

/-- `clock_to_time` and `clock_from_time` of an exact estimate.  Every time of a clock of 64 bits
comes before `PR_NEVER`. -/
structure ClockConversion (K : Type) [LinearOrder K] (prNever : K) where
  toTime : ℕ → K
  fromTime : K → ℕ
  toTime_mono : Monotone toTime
  fromTime_mono : Monotone fromTime
  exact : ∀ c, fromTime (toTime c) = c
  before_never : ∀ c < 18446744073709551616, toTime c < prNever

/-- The value of `x` as an `int64_t`. -/
def i64 (x : Int) : Int := (x + 9223372036854775808) % 18446744073709551616 - 9223372036854775808

/-- `clock_from_clock32`, with `last_clock` of the estimate -/
def clockFromClock32 (lastClock : ℕ) (clock32 : UInt32) : ℕ :=
  (u64 (lastClock + i32 (u32 (clock32.toNat - lastClock)))).toNat

/-! ## The objects -/

/-- `struct trdispatch_mcu` -/
structure TrdispatchMcu where
  trsyncOid : UInt32
  lastStatusClock : ℕ
  expireClock : ℕ
  expireTicks : ℕ
  minExtendTicks : ℕ

inductive TrdispatchMessage (n : ℕ)
  /-- `send_trsync_trigger` -/
  | trigger (m : Fin n) (reason : UInt32)
  /-- `send_trsync_set_timeout` -/
  | setTimeout (m : Fin n) (clock : UInt32) (reqClock : ℕ)
  deriving DecidableEq

namespace TrdispatchMessage

variable {n : ℕ}

/-- The clock of a timeout that goes to one mcu. -/
def timeoutOf (m : Fin n) : TrdispatchMessage n → Option ℕ
  | .trigger .. => none
  | .setTimeout k _ reqClock => if k = m then some reqClock else none

def IsTimeout : TrdispatchMessage n → Prop
  | .trigger .. => False
  | .setTimeout .. => True

end TrdispatchMessage

/-- `struct trdispatch` with its `n` mcus.  `reading` says whose fast reader is registered, and
`sent` has the messages since the last start. -/
structure Trdispatch (n : ℕ) where
  isActive : Bool
  canTrigger : Bool
  dispatchReason : UInt32
  mcu : Fin n → TrdispatchMcu
  reading : Fin n → Bool
  sent : List (TrdispatchMessage n)

/-- The fields of a `trsync_state` message. -/
structure TrsyncStateFields where
  oid : UInt32
  canTrigger : UInt32
  triggerReason : UInt32
  clock : UInt32

inductive TrdispatchEvent (n : ℕ)
  /-- `trdispatch_mcu_setup` -/
  | setup (m : Fin n) (lastStatusClock expireClock expireTicks minExtendTicks : UInt64)
  /-- `trdispatch_start` up to the unlock -/
  | start (dispatchReason : UInt32)
  /-- `serialqueue_add_fastreader` -/
  | addReader (m : Fin n)
  /-- `trdispatch_stop` up to the unlock -/
  | stop
  /-- `serialqueue_rm_fastreader` -/
  | rmReader (m : Fin n)
  /-- a message for the reader of `m`, if it can be decoded, and `last_clock` at this time -/
  | message (m : Fin n) (fields : Option TrsyncStateFields) (lastClock : UInt64)

/-- What the pass over the status times has found. -/
structure StatusScan (n : ℕ) (K : Type) where
  minTime : K
  nextMinTime : K
  minTdm : Option (Fin n)

namespace Trdispatch

variable {n : ℕ} {K : Type} [LinearOrder K] {prNever : K}

/-! ## The handler -/

/-- One round of the search for the minimum. -/
def scanStatus (s : StatusScan n K) (m : Fin n) (statusTime : K) : StatusScan n K :=
  if statusTime < s.nextMinTime then
    if statusTime < s.minTime then
      { minTime := statusTime, nextMinTime := s.minTime, minTdm := some m }
    else { s with nextMinTime := statusTime }
  else s

/-- `clock_to_time(&m->ce, m->last_status_clock)` -/
def statusTime (conv : Fin n → ClockConversion K prNever) (td : Trdispatch n) (m : Fin n) : K :=
  (conv m).toTime (td.mcu m).lastStatusClock

/-- The search for the minimum over a list of mcus. -/
def scanAll (prNever : K) (status : Fin n → K) (l : List (Fin n)) : StatusScan n K :=
  l.foldl (fun s m => scanStatus s m (status m)) ⟨prNever, prNever, none⟩

/-- `if (next_min_time == PR_NEVER) next_min_time = min_time` -/
def finishScan (prNever : K) (s : StatusScan n K) : StatusScan n K :=
  if s.nextMinTime = prNever then { s with nextMinTime := s.minTime } else s

/-- The time on which the timeout of `m` is based. -/
def baseTime (s : StatusScan n K) (m : Fin n) : K :=
  if s.minTdm = some m then s.nextMinTime else s.minTime

/-- `clock_from_time(&m->ce, status_time) + m->expire_ticks` -/
def expireOf (conv : Fin n → ClockConversion K prNever) (td : Trdispatch n) (m : Fin n)
    (time : K) : ℕ :=
  ((conv m).fromTime time + (td.mcu m).expireTicks) % 18446744073709551616

/-- `(int64_t)(expire - m->expire_clock) >= m->min_extend_ticks`, where the comparison with a
`uint64_t` brings the left side back to one. -/
def Extends (td : Trdispatch n) (m : Fin n) (expire : ℕ) : Prop :=
  u64 (i64 (u64 ((expire : ℤ) - (td.mcu m).expireClock))) ≥ (td.mcu m).minExtendTicks

instance (td : Trdispatch n) (m : Fin n) (expire : ℕ) : Decidable (td.Extends m expire) :=
  inferInstanceAs (Decidable (_ ≥ _))

def setMcu (m : Fin n) (tdm : TrdispatchMcu) (td : Trdispatch n) : Trdispatch n :=
  { td with mcu := Function.update td.mcu m tdm }

/-- One round of the loop that sends timeouts. -/
def extendTimeout (conv : Fin n → ClockConversion K prNever) (scan : StatusScan n K)
    (td : Trdispatch n) (m : Fin n) : Trdispatch n :=
  let expire := td.expireOf conv m (baseTime scan m)
  if td.Extends m expire then
    { td.setMcu m { td.mcu m with expireClock := expire } with
      sent := td.sent ++ [.setTimeout m expire.toUInt32 expire] }
  else td

/-- `handle_trsync_state` -/
def handleTrsyncState (conv : Fin n → ClockConversion K prNever) (m : Fin n)
    (fields : Option TrsyncStateFields) (lastClock : UInt64) (td : Trdispatch n) :
    Trdispatch n :=
  match fields with
  | none => td
  | some fields =>
    if fields.oid ≠ (td.mcu m).trsyncOid then td
    else if ¬td.canTrigger then td
    else if fields.canTrigger = 0 then
      { td with
        canTrigger := false
        sent := td.sent ++ (List.finRange n).map (.trigger · td.dispatchReason) }
    else
      let clock := clockFromClock32 lastClock.toNat fields.clock
      let td := td.setMcu m { td.mcu m with lastStatusClock := clock }
      let scan := finishScan prNever (scanAll prNever (td.statusTime conv) (List.finRange n))
      (List.finRange n).foldl (extendTimeout conv scan) td

/-! ## The other functions -/

/-- `trdispatch_mcu_setup` -/
def setup (m : Fin n) (lastStatusClock expireClock expireTicks minExtendTicks : UInt64)
    (td : Trdispatch n) : Trdispatch n :=
  td.setMcu m { td.mcu m with
    lastStatusClock := lastStatusClock.toNat
    expireClock := expireClock.toNat
    expireTicks := expireTicks.toNat
    minExtendTicks := minExtendTicks.toNat }

/-- `trdispatch_start` up to the unlock -/
def start (dispatchReason : UInt32) (td : Trdispatch n) : Trdispatch n :=
  if td.isActive ∨ List.finRange n = [] then td
  else
    { td with
      dispatchReason := dispatchReason
      isActive := true
      canTrigger := true
      sent := [] }

/-- A handler runs while its reader is registered.  The functions of the object are called one
after another, so readers are added in a start only, and removed behind a stop. -/
def Enabled (td : Trdispatch n) : TrdispatchEvent n → Prop
  | .setup .. => td.isActive = false ∧ ∀ m, td.reading m = false
  | .start _ => td.isActive = false → ∀ m, td.reading m = false
  | .addReader _ => td.isActive = true
  | .stop => True
  | .rmReader _ => td.isActive = false
  | .message m .. => td.reading m = true

instance (td : Trdispatch n) : (e : TrdispatchEvent n) → Decidable (td.Enabled e)
  | .setup .. => inferInstanceAs (Decidable (_ ∧ _))
  | .start _ => inferInstanceAs (Decidable (_ → _))
  | .stop => inferInstanceAs (Decidable True)
  | .addReader _ | .rmReader _ | .message .. => inferInstanceAs (Decidable (_ = _))

def apply (conv : Fin n → ClockConversion K prNever) (td : Trdispatch n) :
    TrdispatchEvent n → Trdispatch n
  | .setup m lastStatusClock expireClock expireTicks minExtendTicks =>
    td.setup m lastStatusClock expireClock expireTicks minExtendTicks
  | .start dispatchReason => td.start dispatchReason
  | .addReader m => { td with reading := Function.update td.reading m true }
  | .stop => { td with isActive := false }
  | .rmReader m => { td with reading := Function.update td.reading m false }
  | .message m fields lastClock => td.handleTrsyncState conv m fields lastClock

/-- One event. -/
def Step (conv : Fin n → ClockConversion K prNever) (td : Trdispatch n) (e : TrdispatchEvent n)
    (td' : Trdispatch n) : Prop :=
  td.Enabled e ∧ td.apply conv e = td'

/-- `trdispatch_alloc` and `trdispatch_mcu_alloc` -/
def allocated (trsyncOid : Fin n → UInt32) : Trdispatch n where
  isActive := false
  canTrigger := false
  dispatchReason := 0
  mcu m := ⟨trsyncOid m, 0, 0, 0, 0⟩
  reading _ := false
  sent := []

/-! ## The two smallest times -/

section Scan

variable {status : Fin n → K} {l : List (Fin n)} {s : StatusScan n K} {k m : Fin n}

/-- What is known behind the pass over `l`, in which `k` has the smallest time. -/
structure Scanned (prNever : K) (status : Fin n → K) (l : List (Fin n)) (s : StatusScan n K)
    (k : Fin n) : Prop where
  owner : s.minTdm = some k
  mem : k ∈ l
  min : s.minTime = status k
  least : ∀ j ∈ l, status k ≤ status j
  next : ∀ j ∈ l, j ≠ k → s.nextMinTime ≤ status j
  attained : (s.nextMinTime = prNever ∧ ∀ j ∈ l, j = k) ∨
    ∃ j ∈ l, j ≠ k ∧ s.nextMinTime = status j

theorem Scanned.min_le_next (h : Scanned prNever status l s k) (hbefore : status k < prNever) :
    status k ≤ s.nextMinTime := by
  rcases h.attained with ⟨hnever, -⟩ | ⟨j, hj, -, heq⟩
  · rw [hnever]
    exact hbefore.le
  · rw [heq]
    exact h.least j hj

theorem scanned_single (hbefore : status m < prNever) :
    Scanned prNever status [m] (scanStatus ⟨prNever, prNever, none⟩ m (status m)) m := by
  rw [scanStatus, if_pos hbefore, if_pos hbefore]
  refine ⟨rfl, List.mem_singleton_self m, rfl, fun j hj => ?_, fun j hj hne => ?_, ?_⟩
  · rw [List.mem_singleton.mp hj]
  · exact absurd (List.mem_singleton.mp hj) hne
  · exact Or.inl ⟨rfl, fun j hj => List.mem_singleton.mp hj⟩

/-- One round of the search. -/
theorem Scanned.step (h : Scanned prNever status l s k) (hm : m ∉ l)
    (hbefore : ∀ j, status j < prNever) :
    ∃ k', Scanned prNever status (l ++ [m]) (scanStatus s m (status m)) k' := by
  have hkm : k ≠ m := fun heq => hm (heq ▸ h.mem)
  unfold scanStatus
  split
  · rename_i hnext
    split
    · -- a new smallest time
      rename_i hmin
      rw [h.min] at hmin
      refine ⟨m, rfl, by simp, rfl, fun j hj => ?_, fun j hj hne => ?_, Or.inr ⟨k, ?_, hkm, h.min⟩⟩
      · rcases List.mem_append.mp hj with hj | hj
        · exact hmin.le.trans (h.least j hj)
        · rw [List.mem_singleton.mp hj]
      · rcases List.mem_append.mp hj with hj | hj
        · rw [h.min]
          exact h.least j hj
        · exact absurd (List.mem_singleton.mp hj) hne
      · exact List.mem_append_left _ h.mem
    · -- a new second smallest time
      rename_i hmin
      rw [h.min, not_lt] at hmin
      refine ⟨k, h.owner, List.mem_append_left _ h.mem, h.min, fun j hj => ?_, fun j hj hne => ?_,
        Or.inr ⟨m, by simp, hkm.symm, rfl⟩⟩
      · rcases List.mem_append.mp hj with hj | hj
        · exact h.least j hj
        · rw [List.mem_singleton.mp hj]
          exact hmin
      · rcases List.mem_append.mp hj with hj | hj
        · exact hnext.le.trans (h.next j hj hne)
        · rw [List.mem_singleton.mp hj]
  · rename_i hnext
    rw [not_lt] at hnext
    have hattained : ∃ j ∈ l, j ≠ k ∧ s.nextMinTime = status j := by
      rcases h.attained with ⟨hnever, -⟩ | hattained
      · rw [hnever] at hnext
        exact absurd (hbefore m) hnext.not_gt
      · exact hattained
    obtain ⟨i, hi, hik, heq⟩ := hattained
    refine ⟨k, h.owner, List.mem_append_left _ h.mem, h.min, fun j hj => ?_, fun j hj hne => ?_,
      Or.inr ⟨i, List.mem_append_left _ hi, hik, heq⟩⟩
    · rcases List.mem_append.mp hj with hj | hj
      · exact h.least j hj
      · rw [List.mem_singleton.mp hj]
        exact (h.min_le_next (hbefore k)).trans hnext
    · rcases List.mem_append.mp hj with hj | hj
      · exact h.next j hj hne
      · rw [List.mem_singleton.mp hj]
        exact hnext

theorem scanAll_scanned (hbefore : ∀ j, status j < prNever) (hnodup : l.Nodup) (hne : l ≠ []) :
    ∃ k, Scanned prNever status l (scanAll prNever status l) k := by
  induction l using List.reverseRecOn with
  | nil => exact absurd rfl hne
  | append_singleton l m ih =>
    unfold scanAll at ih ⊢
    rw [List.foldl_append, List.foldl_cons, List.foldl_nil]
    rw [List.nodup_append] at hnodup
    cases l with
    | nil => exact ⟨m, scanned_single (hbefore m)⟩
    | cons i l =>
      obtain ⟨k, hscanned⟩ := ih hnodup.1 (List.cons_ne_nil i l)
      refine hscanned.step (fun hmem => ?_) hbefore
      exact hnodup.2.2 m hmem m (List.mem_singleton_self m) rfl

/-- With two mcus or more, the timeout of an mcu is based on the earliest time of the others. -/
theorem baseTime_isLeast (hn : 2 ≤ n) (hbefore : ∀ j, status j < prNever) (m : Fin n) :
    IsLeast (status '' {k | k ≠ m})
      (baseTime (finishScan prNever (scanAll prNever status (List.finRange n))) m) := by
  have hne : List.finRange n ≠ [] := by
    intro hnil
    have hlength := congrArg List.length hnil
    rw [List.length_finRange, List.length_nil] at hlength
    omega
  obtain ⟨k, hscanned⟩ := scanAll_scanned hbefore (List.nodup_finRange n) hne
  have hother : ∃ j, j ≠ k := by
    by_cases hk : k.val = 0
    · exact ⟨⟨1, hn⟩, fun heq => by rw [← heq] at hk; cases hk⟩
    · exact ⟨⟨0, by omega⟩, fun heq => hk (by rw [← heq])⟩
  obtain ⟨i, -, hik, hnext⟩ : ∃ j ∈ List.finRange n, j ≠ k ∧
      (scanAll prNever status (List.finRange n)).nextMinTime = status j := by
    rcases hscanned.attained with ⟨-, hall⟩ | hattained
    · obtain ⟨j, hj⟩ := hother
      exact absurd (hall j (List.mem_finRange j)) hj
    · exact hattained
  rw [finishScan, if_neg (by rw [hnext]; exact (hbefore i).ne), baseTime, hscanned.owner]
  split
  · rename_i hkm
    cases hkm
    refine ⟨⟨i, hik, hnext.symm⟩, ?_⟩
    rintro _ ⟨j, hj, rfl⟩
    exact hscanned.next j (List.mem_finRange j) hj
  · rename_i hkm
    refine ⟨⟨k, fun heq => hkm (congrArg some heq), hscanned.min.symm⟩, ?_⟩
    rintro _ ⟨j, -, rfl⟩
    rw [hscanned.min]
    exact hscanned.least j (List.mem_finRange j)

end Scan

/-! ## The timeouts -/

section Timeouts

variable {conv : Fin n → ClockConversion K prNever} {td td' td₀ : Trdispatch n} {m k : Fin n}

/-- The timeouts among some messages that go to one mcu. -/
def timeoutsOf (m : Fin n) (sent : List (TrdispatchMessage n)) : List ℕ :=
  sent.filterMap (TrdispatchMessage.timeoutOf m)

/-- The timeouts of each mcu only increase. -/
def TimeoutsIncrease (td : Trdispatch n) : Prop :=
  ∀ m, (timeoutsOf m td.sent).Pairwise (· ≤ ·)

/-- No timeout that was sent lies beyond the one in force. -/
def TimeoutsBounded (td : Trdispatch n) : Prop :=
  ∀ m, ∀ c ∈ timeoutsOf m td.sent, c ≤ (td.mcu m).expireClock

/-- The timeout of `m` in force lies at most `expire_ticks` behind a time, and so computed it fits
into 64 bits. -/
def Covers (conv : Fin n → ClockConversion K prNever) (td : Trdispatch n) (m : Fin n) (time : K) :
    Prop :=
  (td.mcu m).expireClock ≤ (conv m).fromTime time + (td.mcu m).expireTicks ∧
    (conv m).fromTime time + (td.mcu m).expireTicks < 18446744073709551616

/-- Each timeout in force is covered by the status times of all other mcus. -/
def Covered (conv : Fin n → ClockConversion K prNever) (td : Trdispatch n) : Prop :=
  ∀ m k, k ≠ m → td.Covers conv m (td.statusTime conv k)

theorem timeoutsOf_append (m : Fin n) (sent new : List (TrdispatchMessage n)) :
    timeoutsOf m (sent ++ new) = timeoutsOf m sent ++ timeoutsOf m new :=
  List.filterMap_append

/-- What the loop over the mcus keeps: `expire` has the timeouts computed for all of them. -/
structure Extending (td₀ : Trdispatch n) (expire : Fin n → ℕ) (td : Trdispatch n) : Prop where
  bounded : ∀ m, (td.mcu m).expireClock ≤ expire m
  grown : ∀ m, (td₀.mcu m).expireClock ≤ (td.mcu m).expireClock
  status : ∀ m, (td.mcu m).lastStatusClock = (td₀.mcu m).lastStatusClock
  ticks : ∀ m, (td.mcu m).expireTicks = (td₀.mcu m).expireTicks
  flags : td.isActive = td₀.isActive ∧ td.canTrigger = td₀.canTrigger ∧
    td.dispatchReason = td₀.dispatchReason ∧ td.reading = td₀.reading
  sent : ∃ new, td.sent = td₀.sent ++ new ∧
    ∀ x ∈ new, ∃ m, x = .setTimeout m (expire m).toUInt32 (expire m)
  increase : td₀.TimeoutsIncrease → td₀.TimeoutsBounded → td.TimeoutsIncrease
  inForce : td₀.TimeoutsBounded → td.TimeoutsBounded

theorem Extending.refl {expire : Fin n → ℕ} (h : ∀ m, (td₀.mcu m).expireClock ≤ expire m) :
    Extending td₀ expire td₀ where
  bounded := h
  grown _ := le_rfl
  status _ := rfl
  ticks _ := rfl
  flags := ⟨rfl, rfl, rfl, rfl⟩
  sent := ⟨[], (List.append_nil _).symm, fun _ hx => by cases hx⟩
  increase h _ := h
  inForce := id

theorem setExpire_field {α : Type} (f : TrdispatchMcu → α) (c : ℕ)
    (hf : ∀ tdm : TrdispatchMcu, f { tdm with expireClock := c } = f tdm) (k : Fin n) :
    f ((td.setMcu m { td.mcu m with expireClock := c }).mcu k) = f (td.mcu k) := by
  show f (Function.update td.mcu m _ k) = _
  by_cases hk : k = m
  · rw [hk, Function.update_self, hf]
  · rw [Function.update_of_ne hk]

theorem timeoutsOf_setTimeout (m k : Fin n) (clock : UInt32) (c : ℕ) :
    timeoutsOf k [.setTimeout m clock c] = if m = k then [c] else [] := by
  unfold timeoutsOf
  rw [List.filterMap_cons, List.filterMap_nil, TrdispatchMessage.timeoutOf]
  split
  · simp_all
  · simp_all

/-- One round of the loop sends a timeout that is not before the one in force, or none. -/
theorem Extending.round {expire : Fin n → ℕ} {scan : StatusScan n K}
    (h : Extending td₀ expire td) (hexpire : td.expireOf conv m (baseTime scan m) = expire m) :
    Extending td₀ expire (extendTimeout conv scan td m) := by
  unfold extendTimeout
  rw [hexpire]
  dsimp only
  split
  · have hle : (td.mcu m).expireClock ≤ expire m := h.bounded m
    have hclock : ∀ k, ((td.setMcu m { td.mcu m with expireClock := expire m }).mcu k).expireClock =
        if m = k then expire m else (td.mcu k).expireClock := by
      intro k
      show (Function.update td.mcu m _ k).expireClock = _
      split
      · rename_i hk
        rw [← hk, Function.update_self]
      · rename_i hk
        rw [Function.update_of_ne fun heq => hk heq.symm]
    refine ⟨fun k => ?_, fun k => ?_, fun k => ?_, fun k => ?_, h.flags, ?_, fun hinc hbound => ?_,
      fun hbound => ?_⟩
    · refine (hclock k).trans_le ?_
      split
      · rename_i hk
        rw [hk]
      · exact h.bounded k
    · refine le_of_le_of_eq ?_ (hclock k).symm
      split
      · rename_i hk
        exact hk ▸ (h.grown m).trans hle
      · exact h.grown k
    · exact (setExpire_field TrdispatchMcu.lastStatusClock _ (fun _ => rfl) k).trans (h.status k)
    · exact (setExpire_field TrdispatchMcu.expireTicks _ (fun _ => rfl) k).trans (h.ticks k)
    · obtain ⟨new, hsent, hnew⟩ := h.sent
      refine ⟨new ++ [.setTimeout m (expire m).toUInt32 (expire m)], ?_, fun x hx => ?_⟩
      · rw [hsent, List.append_assoc]
      · rcases List.mem_append.mp hx with hx | hx
        · exact hnew x hx
        · exact ⟨m, List.mem_singleton.mp hx⟩
    · intro k
      rw [timeoutsOf_append, timeoutsOf_setTimeout]
      split
      · rename_i hk
        refine List.pairwise_append.mpr ⟨h.increase hinc hbound k, List.pairwise_singleton _ _,
          fun c hc d hd => ?_⟩
        rw [List.mem_singleton.mp hd]
        exact (h.inForce hbound k c hc).trans (hk ▸ hle)
      · rw [List.append_nil]
        exact h.increase hinc hbound k
    · intro k c hc
      rw [timeoutsOf_append, timeoutsOf_setTimeout, List.mem_append] at hc
      refine le_of_le_of_eq ?_ (hclock k).symm
      split at hc
      · rename_i hk
        rw [if_pos hk]
        rcases hc with hc | hc
        · exact (h.inForce hbound k c hc).trans (hk ▸ hle)
        · exact (List.mem_singleton.mp hc).le
      · rename_i hk
        rw [if_neg hk]
        rcases hc with hc | hc
        · exact h.inForce hbound k c hc
        · cases hc
  · exact h

theorem Extending.loop {expire : Fin n → ℕ} {scan : StatusScan n K} {l : List (Fin n)}
    (h : Extending td₀ expire td)
    (hexpire : ∀ m, td₀.expireOf conv m (baseTime scan m) = expire m) :
    Extending td₀ expire (l.foldl (extendTimeout conv scan) td) := by
  induction l generalizing td with
  | nil => exact h
  | cons m l ih =>
    refine ih (h.round ?_)
    rw [← hexpire m]
    unfold expireOf
    rw [h.ticks m]

/-! ## A homing move -/

/-- The status of a report that is handled: the mcu can still trigger, and so can the others. -/
def Acknowledges (td : Trdispatch n) (m : Fin n) (fields : TrsyncStateFields) : Prop :=
  fields.oid = (td.mcu m).trsyncOid ∧ td.canTrigger = true ∧ fields.canTrigger ≠ 0

/-- No timeout in force is undercut: at a start not by the status that was set up, and later not
by the clock of a report. -/
def Timely (conv : Fin n → ClockConversion K prNever) (td : Trdispatch n) :
    TrdispatchEvent n → Prop
  | .start _ => td.isActive = false → td.Covered conv
  | .message m (some fields) lastClock =>
    td.Acknowledges m fields →
      ∀ k, k ≠ m → td.Covers conv k ((conv m).toTime (clockFromClock32 lastClock.toNat fields.clock))
  | _ => True

instance (td : Trdispatch n) : Decidable (td.Covered conv) :=
  inferInstanceAs (Decidable (∀ _ _, _ → _ ∧ _))

instance (td : Trdispatch n) : (e : TrdispatchEvent n) → Decidable (td.Timely conv e)
  | .start _ => inferInstanceAs (Decidable (_ → _))
  | .message _ (some _) _ => inferInstanceAs (Decidable (_ ∧ _ ∧ _ → ∀ _, _ → _ ∧ _))
  | .setup .. | .addReader _ | .stop | .rmReader _ | .message _ none _ =>
    inferInstanceAs (Decidable True)

/-- A homing move is under way. -/
def Live (td : Trdispatch n) : Prop := td.isActive = true ∨ ∃ m, td.reading m = true

/-- Timeouts are sent while no mcu has reported a trigger; then each mcu is sent one trigger, and
nothing more. -/
def TriggeredOnce (td : Trdispatch n) : Prop :=
  (td.canTrigger = true ∧ ∀ x ∈ td.sent, x.IsTimeout) ∨
    td.canTrigger = false ∧ ∃ timeouts : List (TrdispatchMessage n), (∀ x ∈ timeouts, x.IsTimeout) ∧
      td.sent = timeouts ++ (List.finRange n).map (.trigger · td.dispatchReason)

/-- Each timeout that a message brings about lies `expire_ticks` behind the earliest time that
another mcu has last acknowledged. -/
def TimeoutsJustified (conv : Fin n → ClockConversion K prNever) (td td' : Trdispatch n) : Prop :=
  ∃ new, td'.sent = td.sent ++ new ∧ ∀ m clock reqClock, .setTimeout m clock reqClock ∈ new →
    clock = reqClock.toUInt32 ∧ ∃ t, IsLeast (td'.statusTime conv '' {k | k ≠ m}) t ∧
      reqClock = (conv m).fromTime t + (td'.mcu m).expireTicks

/-- The invariant of homing moves. -/
structure Homing (conv : Fin n → ClockConversion K prNever) (td : Trdispatch n) : Prop where
  increase : td.TimeoutsIncrease
  clocks : ∀ m, (td.mcu m).lastStatusClock < 18446744073709551616
  bounded : td.Live → td.TimeoutsBounded
  covered : td.Live → td.Covered conv
  triggered : td.Live → td.TriggeredOnce

theorem clockFromClock32_lt (lastClock : ℕ) (clock32 : UInt32) :
    clockFromClock32 lastClock clock32 < 18446744073709551616 := by
  unfold clockFromClock32 u64
  omega

/-- A report that is handled leaves the timeouts in force covered by the new status times, which
they are computed from. -/
theorem Homing.acknowledge (hn : 2 ≤ n) (h : td.Homing conv) (hlive : td.Live)
    (hcan : td.canTrigger = true) {clock : ℕ} (hclock : clock < 18446744073709551616)
    (htimely : ∀ k, k ≠ m → td.Covers conv k ((conv m).toTime clock)) :
    let acked := td.setMcu m { td.mcu m with lastStatusClock := clock }
    let scan := finishScan prNever (scanAll prNever (acked.statusTime conv) (List.finRange n))
    let td' := (List.finRange n).foldl (extendTimeout conv scan) acked
    td'.Homing conv ∧ td.TimeoutsJustified conv td' := by
  intro acked scan td'
  have hfield : ∀ {α : Type} (f : TrdispatchMcu → α),
      (∀ tdm : TrdispatchMcu, f { tdm with lastStatusClock := clock } = f tdm) →
      ∀ k, f (acked.mcu k) = f (td.mcu k) := by
    intro α f hf k
    show f (Function.update td.mcu m _ k) = _
    by_cases hk : k = m
    · rw [hk, Function.update_self, hf]
    · rw [Function.update_of_ne hk]
  have hexpire : ∀ k, (acked.mcu k).expireClock = (td.mcu k).expireClock :=
    hfield _ fun _ => rfl
  have hticks : ∀ k, (acked.mcu k).expireTicks = (td.mcu k).expireTicks :=
    hfield _ fun _ => rfl
  have hstatusClock : ∀ k, (acked.mcu k).lastStatusClock =
      if k = m then clock else (td.mcu k).lastStatusClock := by
    intro k
    show (Function.update td.mcu m _ k).lastStatusClock = _
    split
    · rename_i hk
      rw [hk, Function.update_self]
    · rename_i hk
      rw [Function.update_of_ne hk]
  have hcovered : acked.Covered conv := by
    intro k j hjk
    unfold Covers
    rw [hexpire, hticks, statusTime, hstatusClock]
    split
    · rename_i hj
      rw [hj]
      exact htimely k fun heq => hjk (hj.trans heq.symm)
    · exact h.covered hlive k j hjk
  have hclocks : ∀ k, (acked.mcu k).lastStatusClock < 18446744073709551616 := by
    intro k
    rw [hstatusClock]
    split
    · exact hclock
    · exact h.clocks k
  have hbefore : ∀ k, acked.statusTime conv k < prNever := fun k =>
    (conv k).before_never _ (hclocks k)
  have hleast : ∀ k, IsLeast (acked.statusTime conv '' {j | j ≠ k}) (baseTime scan k) :=
    baseTime_isLeast hn hbefore
  have hcovers : ∀ k, acked.Covers conv k (baseTime scan k) := by
    intro k
    obtain ⟨j, hj, heq⟩ := (hleast k).1
    rw [← heq]
    exact hcovered k j hj
  let expire : Fin n → ℕ := fun k => (conv k).fromTime (baseTime scan k) + (acked.mcu k).expireTicks
  have hextending : Extending acked expire td' := by
    refine Extending.loop (.refl fun k => (hcovers k).1) fun k => ?_
    exact Nat.mod_eq_of_lt (hcovers k).2
  have hlive' : acked.Live := hlive
  have hboundedAcked : acked.TimeoutsBounded := by
    intro k c hc
    rw [hexpire]
    exact h.bounded hlive k c hc
  have hstatus : td'.statusTime conv = acked.statusTime conv := by
    funext k
    unfold statusTime
    rw [hextending.status]
  obtain ⟨new, hsent, hnew⟩ := hextending.sent
  refine ⟨⟨hextending.increase h.increase hboundedAcked, fun k => ?_, fun _ => ?_, fun _ => ?_,
    fun _ => ?_⟩, new, hsent, fun k clock' reqClock hmem => ?_⟩
  · rw [hextending.status]
    exact hclocks k
  · exact hextending.inForce hboundedAcked
  · intro k j hjk
    unfold Covers
    rw [hextending.ticks, hstatus]
    refine ⟨(hextending.bounded k).trans (Nat.add_le_add_right ?_ _), (hcovered k j hjk).2⟩
    exact (conv k).fromTime_mono ((hleast k).2 ⟨j, hjk, rfl⟩)
  · obtain ⟨-, hcan', -, -⟩ := hextending.flags
    refine Or.inl ⟨hcan'.trans hcan, fun x hx => ?_⟩
    rw [hsent] at hx
    rcases List.mem_append.mp hx with hx | hx
    · rcases h.triggered hlive with ⟨-, hall⟩ | ⟨hnot, -⟩
      · exact hall x hx
      · rw [hcan] at hnot
        cases hnot
    · obtain ⟨k, rfl⟩ := hnew x hx
      exact trivial
  · obtain ⟨k', heq⟩ := hnew _ hmem
    cases heq
    refine ⟨rfl, baseTime scan k, ?_, ?_⟩
    · rw [hstatus]
      exact hleast k
    · rw [hextending.ticks]

/-- What a message does that is no report to be acknowledged: nothing, or every mcu is sent a
trigger. -/
theorem handleTrsyncState_cases (fields : Option TrsyncStateFields) (lastClock : UInt64) :
    td.handleTrsyncState conv m fields lastClock = td ∨
      (td.canTrigger = true ∧ td.handleTrsyncState conv m fields lastClock =
        { td with
          canTrigger := false
          sent := td.sent ++ (List.finRange n).map (.trigger · td.dispatchReason) }) ∨
      ∃ report, fields = some report ∧ td.Acknowledges m report ∧
        td.handleTrsyncState conv m fields lastClock =
          let acked := td.setMcu m { td.mcu m with
            lastStatusClock := clockFromClock32 lastClock.toNat report.clock }
          let scan := finishScan prNever (scanAll prNever (acked.statusTime conv) (List.finRange n))
          (List.finRange n).foldl (extendTimeout conv scan) acked := by
  cases fields with
  | none => exact Or.inl rfl
  | some report =>
    unfold handleTrsyncState
    dsimp only
    split
    · exact Or.inl rfl
    · rename_i hoid
      split
      · exact Or.inl rfl
      · rename_i hcan
        rw [not_not] at hoid hcan
        split
        · exact Or.inr (Or.inl ⟨hcan, rfl⟩)
        · rename_i hreport
          exact Or.inr (Or.inr ⟨report, rfl, ⟨hoid, hcan, hreport⟩, rfl⟩)

theorem Homing.message (hn : 2 ≤ n) (h : td.Homing conv) {fields : Option TrsyncStateFields}
    {lastClock : UInt64} (hreading : td.reading m = true)
    (htimely : td.Timely conv (.message m fields lastClock)) :
    (td.handleTrsyncState conv m fields lastClock).Homing conv ∧
      td.TimeoutsJustified conv (td.handleTrsyncState conv m fields lastClock) := by
  have hlive : td.Live := Or.inr ⟨m, hreading⟩
  rcases @handleTrsyncState_cases _ _ _ _ conv td m fields lastClock with
    heq | ⟨hcan, heq⟩ | ⟨report, rfl, hack, heq⟩
  · rw [heq]
    exact ⟨h, [], (List.append_nil _).symm, fun _ _ _ hx => by cases hx⟩
  · rw [heq]
    have hnone : ∀ k, timeoutsOf k ((List.finRange n).map
        (TrdispatchMessage.trigger · td.dispatchReason)) = [] := by
      intro k
      unfold timeoutsOf
      rw [List.filterMap_map]
      exact List.filterMap_eq_nil_iff.mpr fun _ _ => rfl
    refine ⟨⟨fun k => ?_, h.clocks, fun _ k c hc => ?_, fun _ => h.covered hlive, fun _ => ?_⟩,
      _, rfl, fun k clock reqClock hmem => ?_⟩
    · rw [timeoutsOf_append, hnone, List.append_nil]
      exact h.increase k
    · rw [timeoutsOf_append, hnone, List.append_nil] at hc
      exact h.bounded hlive k c hc
    · rcases h.triggered hlive with ⟨-, hall⟩ | ⟨hnot, -⟩
      · exact Or.inr ⟨rfl, td.sent, hall, rfl⟩
      · rw [hcan] at hnot
        cases hnot
    · obtain ⟨_, -, hx⟩ := List.mem_map.mp hmem
      cases hx
  · rw [heq]
    exact h.acknowledge hn hlive hack.2.1 (clockFromClock32_lt _ _) (htimely hack)

theorem homing_allocated (trsyncOid : Fin n → UInt32) :
    (allocated trsyncOid).Homing conv := by
  have hidle : ¬(allocated trsyncOid).Live := by
    rintro (h | ⟨_, h⟩)
    · cases h
    · cases h
  exact ⟨fun _ => List.Pairwise.nil, fun _ => by dsimp only [allocated]; omega,
    fun h => absurd h hidle, fun h => absurd h hidle, fun h => absurd h hidle⟩

/-- Each event keeps the invariant, as long as no timeout in force is undercut. -/
theorem Homing.step (hn : 2 ≤ n) {e : TrdispatchEvent n} (h : td.Homing conv)
    (hstep : td.Step conv e td') (htimely : td.Timely conv e) : td'.Homing conv := by
  obtain ⟨henabled, rfl⟩ := hstep
  cases e with
  | setup m lastStatusClock expireClock expireTicks minExtendTicks =>
    have hidle : ¬td.Live := by
      rintro (hactive | ⟨k, hreading⟩)
      · rw [henabled.1] at hactive
        cases hactive
      · rw [henabled.2 k] at hreading
        cases hreading
    refine ⟨h.increase, fun k => ?_, fun hl => absurd hl hidle, fun hl => absurd hl hidle,
      fun hl => absurd hl hidle⟩
    show (Function.update td.mcu m _ k).lastStatusClock < _
    by_cases hk : k = m
    · rw [hk, Function.update_self]
      exact lastStatusClock.toNat_lt
    · rw [Function.update_of_ne hk]
      exact h.clocks k
  | start dispatchReason =>
    show (td.start dispatchReason).Homing conv
    unfold start
    split
    · exact h
    · rename_i hnot
      have hidle : td.isActive = false := by
        rw [not_or] at hnot
        exact Bool.eq_false_iff.mpr hnot.1
      refine ⟨fun _ => List.Pairwise.nil, h.clocks, fun _ k c hc => ?_, fun _ => htimely hidle,
        fun _ => Or.inl ⟨rfl, fun _ hx => ?_⟩⟩
      · cases hc
      · cases hx
  | addReader m =>
    have hlive : td.Live := Or.inl henabled
    exact ⟨h.increase, h.clocks, fun _ => h.bounded hlive, fun _ => h.covered hlive,
      fun _ => h.triggered hlive⟩
  | stop =>
    have hlive : ∀ hl : (td.apply conv .stop).Live, td.Live := by
      rintro (hactive | hreading)
      · cases hactive
      · exact Or.inr hreading
    exact ⟨h.increase, h.clocks, fun hl => h.bounded (hlive hl), fun hl => h.covered (hlive hl),
      fun hl => h.triggered (hlive hl)⟩
  | rmReader m =>
    have hlive : ∀ hl : (td.apply conv (.rmReader m)).Live, td.Live := by
      rintro (hactive | ⟨k, hreading⟩)
      · exact Or.inl hactive
      · refine Or.inr ⟨k, ?_⟩
        replace hreading : Function.update td.reading m false k = true := hreading
        by_cases hk : k = m
        · rw [hk, Function.update_self] at hreading
          cases hreading
        · rwa [Function.update_of_ne hk] at hreading
    exact ⟨h.increase, h.clocks, fun hl => h.bounded (hlive hl), fun hl => h.covered (hlive hl),
      fun hl => h.triggered (hlive hl)⟩
  | message m fields lastClock => exact (h.message hn henabled htimely).1

/-- A report that an mcu cannot trigger any more. -/
def ReportsTrigger (td : Trdispatch n) : TrdispatchEvent n → Prop
  | .message m (some fields) _ => fields.oid = (td.mcu m).trsyncOid ∧ fields.canTrigger = 0
  | _ => False

/-- What is promised of the state behind a run, and of each event that comes next. -/
structure HomingSafe (conv : Fin n → ClockConversion K prNever) (td : Trdispatch n) : Prop where
  increase : td.TimeoutsIncrease
  triggered : td.Live → td.TriggeredOnce
  /-- the first such report ends the extensions -/
  failed : ∀ e td', td.Step conv e td' → td.ReportsTrigger e → td'.canTrigger = false

theorem failed_report {e : TrdispatchEvent n} (hstep : td.Step conv e td')
    (hreport : td.ReportsTrigger e) : td'.canTrigger = false := by
  obtain ⟨-, rfl⟩ := hstep
  cases e with
  | message m fields lastClock =>
    cases fields with
    | none => exact False.elim hreport
    | some fields =>
      obtain ⟨hoid, hcan⟩ := hreport
      show (td.handleTrsyncState conv m (some fields) lastClock).canTrigger = false
      unfold handleTrsyncState
      dsimp only
      rw [if_neg (not_not.mpr hoid)]
      split
      · rename_i hnot
        exact Bool.eq_false_iff.mpr hnot
      · rfl
  | _ => exact False.elim hreport

/-- **Homing with several mcus.**  In every run in which no timeout in force is undercut, each
timeout that is sent lies `expire_ticks` behind the earliest time that another mcu has
acknowledged, the timeouts of each mcu increase, and the first report of a trigger brings each mcu
one trigger and ends the timeouts. -/
theorem homing_safe (hn : 2 ≤ n) {trsyncOid : Fin n → UInt32} {es : List (TrdispatchEvent n)}
    (h : Run (fun td e td' => td.Step conv e td' ∧ td.Timely conv e) (allocated trsyncOid) es td) :
    td.HomingSafe conv ∧ ∀ m fields lastClock td', td.Step conv (.message m fields lastClock) td' →
      td.Timely conv (.message m fields lastClock) → td.TimeoutsJustified conv td' := by
  have hhoming : td.Homing conv :=
    h.invariant (homing_allocated trsyncOid) fun _ _ _ hs hstep => hs.step hn hstep.1 hstep.2
  refine ⟨⟨hhoming.increase, hhoming.triggered, fun e td' => failed_report⟩, ?_⟩
  rintro m fields lastClock td' ⟨henabled, rfl⟩ htimely
  exact (hhoming.message hn henabled htimely).2

end Timeouts

/-! ## Two mcus -/

/-- An mcu with a clock of 1 MHz that starts at the time 0. -/
def megahertz : ClockConversion ℚ 9999999999999999 where
  toTime c := c / 1000000
  fromTime t := ⌊t * 1000000⌋₊
  toTime_mono c d h := div_le_div_of_nonneg_right (Nat.cast_le.mpr h) (by decide +kernel)
  fromTime_mono s t h := Nat.floor_mono (mul_le_mul_of_nonneg_right h (by decide +kernel))
  exact c := by
    rw [div_mul_cancel₀ _ (by decide +kernel), Nat.floor_natCast]
  before_never c h := by
    rw [div_lt_iff₀ (by decide +kernel)]
    have hc : (c : ℚ) < 18446744073709551616 := by exact_mod_cast h
    refine hc.trans ?_
    decide +kernel

/-- The start of a homing move of two mcus, and their reports at 10 ms, up to the one of a
trigger. -/
def homingEvents : List (TrdispatchEvent 2) :=
  [.setup 0 1000 26000 25000 8000, .setup 1 1000 26000 25000 8000, .start 3, .addReader 0,
    .addReader 1, .message 0 (some ⟨7, 1, 0, 11000⟩) 11000,
    .message 1 (some ⟨8, 1, 0, 12000⟩) 12000]

def twoMcus : Trdispatch 2 := allocated fun m => if m = 0 then 7 else 8

theorem homing_safe_two :
    let conv : Fin 2 → ClockConversion ℚ 9999999999999999 := fun _ => megahertz
    let events := homingEvents ++ [TrdispatchEvent.message 0 (some ⟨7, 0, 1, 0⟩) 13000]
    let td := events.foldl (apply conv) twoMcus
    (td.HomingSafe conv ∧ ∀ m fields lastClock td',
      td.Step conv (.message m fields lastClock) td' →
      td.Timely conv (.message m fields lastClock) → td.TimeoutsJustified conv td') ∧
      td.sent = [.setTimeout 1 36000 36000, .setTimeout 0 37000 37000, .trigger 0 3,
        .trigger 1 3] := by
  intro conv events td
  have hrun : Run (fun td e td' => (td.Enabled e ∧ td.Timely conv e) ∧ td' = td.apply conv e)
      twoMcus _ td := Run.of_checks (by decide +kernel)
  refine ⟨homing_safe (le_refl 2) (hrun.mono fun s e t hs => ?_), by decide +kernel⟩
  exact ⟨⟨hs.1.1, hs.2.symm⟩, hs.1.2⟩

/-- A report that comes late takes back the timeout of the other mcu, since the difference is
compared as a `uint64_t`. -/
theorem timeout_taken_back :
    ¬∀ (es : List (TrdispatchEvent 2)) (td : Trdispatch 2),
      Run (Step fun _ => megahertz) twoMcus es td → td.TimeoutsIncrease := by
  intro h
  have hrun : Run (fun td e td' => td.Enabled e ∧ td' = td.apply (fun _ => megahertz) e)
      twoMcus (homingEvents ++ [TrdispatchEvent.message 1 (some ⟨8, 1, 0, 2000⟩) 12000]) _ :=
    Run.of_checks (by decide +kernel)
  have hincrease := h _ _ (hrun.mono fun s e t hs => ⟨hs.1, hs.2.symm⟩) 0
  revert hincrease
  decide +kernel

end Trdispatch

end FlsunT1.Chelper
