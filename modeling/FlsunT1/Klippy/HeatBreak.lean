/-
  Klippy/HeatBreak.lean --- waits for a temperature and the flag that breaks them
  (klippy/extras/heaters.py, klippy/webhooks.py).

  A job is a print or a command that has started.  Each loop of a wait reads the
  flag, which the text of a chunk from a socket may set and clear.  A chunk is kept
  with one character for each of its bytes; `decode` gives the method of a request.
-/
import FlsunT1.Klippy.GcodeCommand
import FlsunT1.Klippy.VirtualSd
import FlsunT1.Library.Lines
import FlsunT1.Library.Run

set_option autoImplicit false

namespace FlsunT1.Klippy

open Library

variable {K : Type} [LinearOrder K] [Zero K]

/-! ## The state -/

/-- A print or a command, whether a cancel request has arrived since it was started, and
whether it is in the loop of `_wait_for_temperature`. -/
structure HeatJob where
  cancelled : Bool
  waiting : Bool
  deriving DecidableEq

/-- The range of a heater. -/
structure HeaterRange (K : Type) where
  minTemp : K
  maxTemp : K

/-- The flag, the data that each connection has not completed, and the jobs. -/
structure HeatState where
  heatBreak : Bool
  isShutdown : Bool
  partialData : Nat → List Char
  jobs : List HeatJob

/-- The events of the sockets, of the commands and of the waits. -/
inductive HeatEvent (K : Type)
  /-- `process_received` on a connection -/
  | receive (conn : Nat) (data : String)
  | m105 (gcmd : GCodeCommand)
  /-- a print or a command starts -/
  | start
  /-- `set_temperature` in a job, up to the first check of the heater -/
  | setTemperature (job : Nat) (heater : HeaterRange K) (temp : K) (wait busy : Bool)
  /-- the head of the loop of `_wait_for_temperature`, after a pause -/
  | check (job : Nat) (busy : Bool)
  | shutdown

/-! ## The flag -/

/-- The text that sets the flag, which is also the method of a cancel request. -/
def cancelText : String := "pause_resume/cancel"

/-- The text that clears it. -/
def printFileText : String := "SDCARD_PRINT_FILE FILENAME="

/-- What the two matches of `process_received` make of the flag. -/
def matchTexts (data : String) (heatBreak : Bool) : Bool :=
  let heatBreak := if isSubstring cancelText data then true else heatBreak
  if isSubstring printFileText data then false else heatBreak

/-- The requests that a chunk completes, given what came before it. -/
def requestsOf (partialData : List Char) (data : String) : List (List Char) :=
  linesOf (Char.ofNat 3) (partialData ++ data.toList)

/-- A cancel request is among the requests that a chunk completes. -/
def completesCancel (decode : List Char → Option String) (partialData : List Char)
    (data : String) : Bool :=
  (requestsOf partialData data).any fun req => decode req = some cancelText

/-- `cmd_M105`, which may fail after it has answered. -/
def cmdM105 (num : Numerals K) (gcmd : GCodeCommand) (heatBreak : Bool) : Bool :=
  match gcmd.getFloat num "S" .aboveZero with
  | .ok (some _) => false
  | _ => heatBreak

namespace HeatState

/-- `process_received` -/
def processReceived (decode : List Char → Option String) (conn : Nat) (data : String)
    (s : HeatState) : HeatState :=
  let cancelled := completesCancel decode (s.partialData conn) data
  { s with
    heatBreak := matchTexts data s.heatBreak
    partialData := fun c =>
      if c = conn then tailOf (Char.ofNat 3) (s.partialData conn ++ data.toList)
      else s.partialData c
    jobs := s.jobs.map fun j => { j with cancelled := j.cancelled || cancelled } }

/-- The loop of `_wait_for_temperature` goes on. -/
def goesOn (s : HeatState) (busy : Bool) : Bool := !s.isShutdown && busy && !s.heatBreak

/-- `set_temp` accepts the temperature. -/
def accepts (heater : HeaterRange K) (temp : K) : Prop :=
  temp = 0 ∨ (heater.minTemp ≤ temp ∧ temp ≤ heater.maxTemp)

instance (heater : HeaterRange K) (temp : K) : Decidable (accepts heater temp) :=
  inferInstanceAs (Decidable (_ ∨ _))

/-- `set_temperature` of a job waits for the heater. -/
def waits (debugOutput : Bool) (heater : HeaterRange K) (temp : K) (wait : Bool) : Bool :=
  decide (accepts heater temp) && wait && decide (temp ≠ 0) && !debugOutput

/-- One event, with the `debugoutput` of the start arguments. -/
def step (decode : List Char → Option String) (num : Numerals K) (debugOutput : Bool)
    (s : HeatState) : HeatEvent K → Option HeatState
  | .receive conn data => some (s.processReceived decode conn data)
  | .m105 gcmd => some { s with heatBreak := cmdM105 num gcmd s.heatBreak }
  | .start => some { s with jobs := s.jobs ++ [⟨false, false⟩] }
  | .setTemperature job heater temp wait busy =>
      match s.jobs[job]? with
      | some ⟨cancelled, false⟩ =>
          let waiting := waits debugOutput heater temp wait && s.goesOn busy
          some { s with jobs := s.jobs.set job ⟨cancelled, waiting⟩ }
      | _ => none
  | .check job busy =>
      match s.jobs[job]? with
      | some ⟨cancelled, true⟩ =>
          some { s with jobs := s.jobs.set job ⟨cancelled, s.goesOn busy⟩ }
      | _ => none
  | .shutdown => some { s with isShutdown := true }

/-- Before any request; the flag is clear when the program starts. -/
def init : HeatState where
  heatBreak := false
  isShutdown := false
  partialData := fun _ => []
  jobs := []

end HeatState

/-! ## Interrupted waits -/

/-- The event is one of a wait of the job that finds its heater busy. -/
def AtBusyHeater (job : Nat) : HeatEvent K → Prop
  | .setTemperature j heater temp wait busy =>
      j = job ∧ HeatState.accepts heater temp ∧ wait = true ∧ temp ≠ 0 ∧ busy = true
  | .check j busy => j = job ∧ busy = true
  | _ => False

/-- `_wait_for_temperature` returns in the job with the heater busy and the printer not
shut down. -/
def Interrupted (s : HeatState) (e : HeatEvent K) (t : HeatState) (job : Nat) : Prop :=
  AtBusyHeater job e ∧ s.isShutdown = false ∧
    ∀ j, t.jobs[job]? = some j → j.waiting = false

/-- A cancel request has arrived since the job was started. -/
def HeatState.IsCancelled (s : HeatState) (job : Nat) : Prop :=
  ∃ j, s.jobs[job]? = some j ∧ j.cancelled = true

/-- The condition on an event: a chunk that sets the flag completes a cancel request; a
wait that finds its heater busy begins with the flag clear, or after a cancel request that
arrived since its job was started, and not under `debugoutput`. -/
def HeatCondition (decode : List Char → Option String) (debugOutput : Bool) (s : HeatState) :
    HeatEvent K → Prop
  | .receive conn data =>
      isSubstring cancelText data = true → isSubstring printFileText data = false →
        completesCancel decode (s.partialData conn) data = true
  | .setTemperature job heater temp wait busy =>
      AtBusyHeater job (.setTemperature job heater temp wait busy) → s.isShutdown = false →
        debugOutput = false ∧ (s.heatBreak = true → s.IsCancelled job)
  | _ => True

/-- While the flag is set, every job that waits has been cancelled. -/
def WaitsCancelled (s : HeatState) : Prop :=
  ∀ j ∈ s.jobs, j.waiting = true → s.heatBreak = true → j.cancelled = true

section Steps

variable {decode : List Char → Option String} {num : Numerals K} {debugOutput : Bool}
  {s t : HeatState}

theorem WaitsCancelled.receive (h : WaitsCancelled s) {conn : Nat} {data : String}
    (hc : HeatCondition (K := K) decode debugOutput s (.receive conn data)) :
    WaitsCancelled (s.processReceived decode conn data) := by
  intro j hj hwaiting hbreak
  obtain ⟨j', hj', rfl⟩ := List.mem_map.mp hj
  show (j'.cancelled || completesCancel decode (s.partialData conn) data) = true
  simp only [HeatState.processReceived, matchTexts] at hbreak
  cases hprint : isSubstring printFileText data with
  | true =>
    rw [hprint, if_pos rfl] at hbreak
    cases hbreak
  | false =>
    rw [hprint, if_neg Bool.false_ne_true] at hbreak
    cases hcancel : isSubstring cancelText data with
    | true => rw [hc hcancel hprint, Bool.or_true]
    | false =>
      rw [hcancel, if_neg Bool.false_ne_true] at hbreak
      rw [h j' hj' hwaiting hbreak, Bool.true_or]

theorem WaitsCancelled.set (h : WaitsCancelled s) {job : Nat} {j : HeatJob}
    (hj : j.waiting = true → s.heatBreak = false) :
    WaitsCancelled { s with jobs := s.jobs.set job j } := by
  intro j' hj' hwaiting hbreak
  rcases List.mem_or_eq_of_mem_set hj' with hmem | rfl
  · exact h j' hmem hwaiting hbreak
  · exact absurd ((hj hwaiting).symm.trans hbreak) Bool.false_ne_true

theorem HeatState.heatBreak_of_goesOn {busy : Bool} (h : s.goesOn busy = true) :
    s.heatBreak = false := by
  simp only [HeatState.goesOn, Bool.and_eq_true, Bool.not_eq_true'] at h
  exact h.2

/-- One event that meets its condition. -/
theorem WaitsCancelled.step (h : WaitsCancelled s) {e : HeatEvent K}
    (hc : HeatCondition decode debugOutput s e)
    (hstep : s.step decode num debugOutput e = some t) : WaitsCancelled t := by
  cases e with
  | receive conn data =>
    obtain rfl := Option.some.inj hstep
    exact h.receive hc
  | m105 gcmd =>
    obtain rfl := Option.some.inj hstep
    intro j hj hwaiting hbreak
    refine h j hj hwaiting ?_
    simp only [cmdM105] at hbreak
    split at hbreak
    · cases hbreak
    · exact hbreak
  | start =>
    obtain rfl := Option.some.inj hstep
    intro j hj hwaiting
    rcases List.mem_append.mp hj with hmem | hmem
    · exact h j hmem hwaiting
    · rw [List.mem_singleton.mp hmem] at hwaiting
      cases hwaiting
  | setTemperature job heater temp wait busy =>
    simp only [HeatState.step] at hstep
    split at hstep
    · obtain rfl := Option.some.inj hstep
      exact h.set fun hwaiting =>
        HeatState.heatBreak_of_goesOn ((Bool.and_eq_true _ _).mp hwaiting).2
    · cases hstep
  | check job busy =>
    simp only [HeatState.step] at hstep
    split at hstep
    · obtain rfl := Option.some.inj hstep
      exact h.set fun hwaiting => HeatState.heatBreak_of_goesOn hwaiting
    · cases hstep
  | shutdown =>
    obtain rfl := Option.some.inj hstep
    exact h

theorem HeatState.heatBreak_of_not_goesOn {busy : Bool} (hbusy : busy = true)
    (hrun : s.isShutdown = false) (h : s.goesOn busy = false) : s.heatBreak = true := by
  rw [HeatState.goesOn, hbusy, hrun] at h
  simpa using h

/-- A wait that is interrupted is one of a job that has been cancelled. -/
theorem WaitsCancelled.interrupted (h : WaitsCancelled s) {e : HeatEvent K}
    (hc : HeatCondition decode debugOutput s e)
    (hstep : s.step decode num debugOutput e = some t) {job : Nat}
    (hint : Interrupted s e t job) : s.IsCancelled job := by
  obtain ⟨hat, hrun, hleft⟩ := hint
  cases e with
  | setTemperature job' heater temp wait busy =>
    obtain ⟨rfl, haccepts, hwait, htemp, hbusy⟩ := hat
    obtain ⟨hdebug, hflag⟩ := hc ⟨rfl, haccepts, hwait, htemp, hbusy⟩ hrun
    simp only [HeatState.step] at hstep
    split at hstep
    · next cancelled hjob =>
      obtain rfl := Option.some.inj hstep
      obtain ⟨hlt, -⟩ := List.getElem?_eq_some_iff.mp hjob
      have hnot := hleft _ (List.getElem?_set_self hlt)
      apply hflag
      apply HeatState.heatBreak_of_not_goesOn hbusy hrun
      have hwaits : HeatState.waits debugOutput heater temp wait = true := by
        simp [HeatState.waits, haccepts, hwait, htemp, hdebug]
      rwa [hwaits, Bool.true_and] at hnot
    · cases hstep
  | check job' busy =>
    obtain ⟨rfl, hbusy⟩ := hat
    simp only [HeatState.step] at hstep
    split at hstep
    · next cancelled hjob =>
      obtain rfl := Option.some.inj hstep
      obtain ⟨hlt, -⟩ := List.getElem?_eq_some_iff.mp hjob
      have hflag := HeatState.heatBreak_of_not_goesOn hbusy hrun
        (hleft _ (List.getElem?_set_self hlt))
      exact ⟨_, hjob, h _ (List.mem_of_getElem? hjob) rfl hflag⟩
    · cases hstep
  | _ => exact hat.elim

end Steps

/-! ## Every run -/

/-- In every run whose events meet their condition, a wait returns from a busy heater only
if a cancel request has arrived since the print or command that issued it was started. -/
theorem cancelled_of_interrupted {decode : List Char → Option String} {num : Numerals K}
    {debugOutput : Bool} {es : List (HeatEvent K)} {s t : HeatState} {e : HeatEvent K}
    (h : Run (fun s e t => HeatState.step decode num debugOutput s e = some t ∧
      HeatCondition decode debugOutput s e) .init es s)
    (hstep : s.step decode num debugOutput e = some t) (hc : HeatCondition decode debugOutput s e)
    {job : Nat} (hint : Interrupted s e t job) : s.IsCancelled job := by
  have hinv : WaitsCancelled s := Run.invariant (P := WaitsCancelled) h (List.forall_mem_nil _)
    fun s e t hs hstep => hs.step hstep.2 hstep.1
  exact hinv.interrupted hc hstep hint

/-! ## A wait that is cut off -/

/-- The cancel request of a client, without its end. -/
def cancelRequest : String :=
  "\x7b\"id\":1,\"method\":\"pause_resume/cancel\",\"params\":\x7b\x7d\x7d"

/-- The method of that request. -/
def decodeCancel (req : List Char) : Option String :=
  if req = cancelRequest.toList then some cancelText else none

/-- The chunk with the request and its end. -/
def cancelChunk : String := cancelRequest ++ String.ofList [Char.ofNat 3]

/-- A heater for up to 300 degrees. -/
def nozzleRange : HeaterRange ℚ := ⟨0, 300⟩

/-- The next command sets the nozzle to 200 and is to wait for it. -/
def heatNozzle : HeatEvent ℚ := .setTemperature 1 nozzleRange 200 true true

theorem atBusyHeater_heatNozzle : AtBusyHeater 1 heatNozzle :=
  ⟨rfl, Or.inr ⟨by decide +kernel, by decide +kernel⟩, rfl, by decide +kernel, rfl⟩

/-- A print is cancelled; the flag stays set and cuts off the wait of the next command. -/
theorem cancelled_fails_after_cancel : ∃ s t : HeatState,
    Run (fun s e t => HeatState.step decodeCancel (numerals []) false s e = some t) .init
      [.start, .receive 0 cancelChunk, .start] s ∧
    s.step decodeCancel (numerals []) false heatNozzle = some t ∧
    Interrupted s heatNozzle t 1 ∧ ¬ s.IsCancelled 1 := by
  obtain ⟨s, hrun, hs⟩ : ∃ s : HeatState,
      Run (fun s e t => HeatState.step decodeCancel (numerals []) false s e = some t) .init
        [.start, .receive 0 cancelChunk, .start] s ∧
      decide (s.heatBreak = true ∧ s.isShutdown = false ∧
        s.jobs = [⟨true, false⟩, ⟨false, false⟩]) = true :=
    Run.exists_of_any (by decide +kernel)
  obtain ⟨hbreak, hrunning, hjobs⟩ := of_decide_eq_true hs
  have hjob : s.jobs[1]? = some ⟨false, false⟩ := by rw [hjobs]; rfl
  have hstop : s.goesOn true = false := by simp [HeatState.goesOn, hbreak]
  refine ⟨s, { s with jobs := s.jobs.set 1 ⟨false, false⟩ }, hrun, ?_,
    ⟨atBusyHeater_heatNozzle, hrunning, ?_⟩, ?_⟩
  · simp only [heatNozzle, HeatState.step, hjob, hstop, Bool.and_false]
  · intro j hj
    rw [hjobs] at hj
    obtain rfl := Option.some.inj hj
    rfl
  · rintro ⟨j, hj, hcancelled⟩
    obtain rfl := Option.some.inj (hjob.symm.trans hj)
    cases hcancelled

/-- A command waits for the nozzle and is cancelled. -/
def cancelledWait : List (HeatEvent ℚ) :=
  [.start, .setTemperature 0 nozzleRange 200 true true, .receive 0 cancelChunk]

instance (s : HeatState) (job : Nat) : Decidable (s.IsCancelled job) :=
  decidable_of_iff ((s.jobs[job]?).any HeatJob.cancelled = true) (Option.any_eq_true _ _)

instance (job : Nat) : (e : HeatEvent K) → Decidable (AtBusyHeater job e)
  | .setTemperature j heater temp wait busy => inferInstanceAs (Decidable (j = job ∧
      HeatState.accepts heater temp ∧ wait = true ∧ temp ≠ 0 ∧ busy = true))
  | .check j busy => inferInstanceAs (Decidable (j = job ∧ busy = true))
  | .receive .. | .m105 _ | .start | .shutdown => inferInstanceAs (Decidable False)

instance (decode : List Char → Option String) (debugOutput : Bool) (s : HeatState) :
    (e : HeatEvent K) → Decidable (HeatCondition decode debugOutput s e)
  | .receive conn data => inferInstanceAs (Decidable (isSubstring cancelText data = true →
      isSubstring printFileText data = false →
        completesCancel decode (s.partialData conn) data = true))
  | .setTemperature job heater temp wait busy => inferInstanceAs (Decidable
      (AtBusyHeater job (.setTemperature job heater temp wait busy) → s.isShutdown = false →
        debugOutput = false ∧ (s.heatBreak = true → s.IsCancelled job)))
  | .m105 _ | .start | .check .. | .shutdown => inferInstanceAs (Decidable True)

theorem cancelled_of_interrupted_wait : ∃ s t : HeatState,
    Interrupted (K := ℚ) s (.check 0 true) t 0 ∧ s.IsCancelled 0 := by
  obtain ⟨s, hrun, hs⟩ : ∃ s : HeatState,
      Run (fun s e t => (if HeatCondition decodeCancel false s e then
        HeatState.step decodeCancel (numerals []) false s e else none) = some t) .init
        cancelledWait s ∧
      decide (s.heatBreak = true ∧ s.isShutdown = false ∧ s.jobs = [⟨true, true⟩]) = true :=
    Run.exists_of_any (by decide +kernel)
  obtain ⟨hbreak, hrunning, hjobs⟩ := of_decide_eq_true hs
  have hjob : s.jobs[0]? = some ⟨true, true⟩ := by rw [hjobs]; rfl
  have hstop : s.goesOn true = false := by simp [HeatState.goesOn, hbreak]
  have hstep : HeatState.step decodeCancel (numerals []) false s (.check 0 true) =
      some { s with jobs := s.jobs.set 0 ⟨true, false⟩ } := by
    simp only [HeatState.step, hjob, hstop]
  have hint : Interrupted (K := ℚ) s (.check 0 true)
      { s with jobs := s.jobs.set 0 ⟨true, false⟩ } 0 := by
    refine ⟨⟨rfl, rfl⟩, hrunning, fun j hj => ?_⟩
    rw [hjobs] at hj
    obtain rfl := Option.some.inj hj
    rfl
  refine ⟨s, _, hint, cancelled_of_interrupted (hrun.mono fun s e t hif => ?_) hstep trivial hint⟩
  split at hif
  · next hc => exact ⟨hif, hc⟩
  · cases hif

end FlsunT1.Klippy
