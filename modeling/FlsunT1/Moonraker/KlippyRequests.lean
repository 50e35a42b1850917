/-
  Moonraker/KlippyRequests.lean --- requests to klippy (moonraker/klippy_connection.py).

  A request is known by the address of its object.  An object is live while a task waits for
  its answer or writes it; then another object may get its address, and an answer that klippy
  still sends is taken for one to the new request.
-/
import FlsunT1.Library.Dict
import FlsunT1.Library.Run
import FlsunT1.Library.Instances

set_option autoImplicit false

namespace FlsunT1.Moonraker

open Library

/-! ## Requests and the connection -/

/-- `_fut`, which has a result, an exception or is cancelled when it is done. -/
inductive FutState
  | pending
  | done
  deriving DecidableEq

/-- `_write_request`: the callback is registered, waits in `drain`, or is done. -/
inductive WriteState
  | registered
  | draining
  | done
  deriving DecidableEq

/-- `class KlippyRequest`, with what holds a reference to it: the task that waits for it, if
there still is one, and the callback that writes it. -/
structure KlippyRequest where
  id : ℕ
  timed : Bool
  fut : FutState
  waiting : Bool
  write : WriteState

namespace KlippyRequest

/-- `__init__`, in `_request_standard`. -/
def new (id : ℕ) (timed : Bool) : KlippyRequest :=
  { id := id, timed := timed, fut := .pending, waiting := true, write := .registered }

def live (r : KlippyRequest) : Bool := r.waiting || decide (r.write ≠ .done)

/-- `set_result` and `set_exception` -/
def setDone (r : KlippyRequest) : KlippyRequest := { r with fut := .done }

/-- The task that waits ends. -/
def release (r : KlippyRequest) : KlippyRequest := { r with waiting := false }

end KlippyRequest

/-- The writer is there, is being closed, or is `None`. -/
inductive Connection
  | connected
  | closing
  | closed
  deriving DecidableEq

/-- The requests that are live, under their numbers in the order of creation.  `inFlight` are
the ids and the numbers of the requests that klippy got and whose answers were not read, and
`completed` the requests that completed with an answer, with the one that was answered. -/
structure RequestState where
  next : ℕ
  requests : Dict ℕ KlippyRequest
  pendingRequests : Dict ℕ ℕ
  inFlight : List (ℕ × ℕ)
  connection : Connection
  completed : List (ℕ × ℕ)

namespace RequestState

def init : RequestState :=
  { next := 0, requests := .empty, pendingRequests := .empty, inFlight := []
    connection := .closed, completed := [] }

/-- A change of a request, which is freed when nothing refers to it any more. -/
def update (s : RequestState) (request : ℕ) (f : KlippyRequest → KlippyRequest) : RequestState :=
  match s.requests.get request with
  | none => s
  | some r =>
    { s with requests :=
        if (f r).live then s.requests.set request (f r) else s.requests.erase request }

/-- `self.pending_requests.pop(id, None)` -/
def popPending (s : RequestState) (id : ℕ) : RequestState :=
  { s with pendingRequests := s.pendingRequests.erase id }

/-- `_request_standard` up to the wait, where the new object gets the address `id`. -/
def requestStandard (s : RequestState) (id : ℕ) (timed : Bool) : RequestState :=
  { s with
    next := s.next + 1
    requests := s.requests.set s.next (.new id timed)
    pendingRequests := s.pendingRequests.set id s.next }

/-- `_request_standard` after the wait. -/
def endRequest (s : RequestState) (request : ℕ) (r : KlippyRequest) : RequestState :=
  (s.popPending r.id).update request KlippyRequest.release

/-- `_process_command` for the answer to `origin`. -/
def processCommand (s : RequestState) (id origin : ℕ) : RequestState :=
  match s.pendingRequests.get id with
  | none => s
  | some request =>
    match s.requests.get request with
    | some { fut := .pending, .. } =>
      { (s.popPending id).update request KlippyRequest.setDone with
        completed := s.completed ++ [(request, origin)] }
    | _ => s.popPending id

/-- `_on_connection_closed` -/
def onConnectionClosed (s : RequestState) : RequestState :=
  { s.pendingRequests.items.foldl (fun s entry => s.update entry.2 KlippyRequest.setDone) s with
    pendingRequests := .empty, connection := .closed }

end RequestState

/-- What happens to the requests.  `respond` is an answer that is read, and `lose` one that
never is. -/
inductive RequestEvent
  | request (id : ℕ) (timed : Bool)
  | write (request : ℕ)
  | writeDone (request : ℕ) (ok : Bool)
  | respond (message : ℕ × ℕ)
  | lose (message : ℕ × ℕ)
  | finish (request : ℕ)
  | timeout (request : ℕ)
  | cancel (request : ℕ)
  | close
  | connectionClosed
  | connect

namespace RequestState

/-- One step: the address of a new object is not the one of a live object. -/
def step (s : RequestState) : RequestEvent → Option RequestState
  | .request id timed =>
    if ∀ entry ∈ s.requests.items, entry.2.id ≠ id then some (s.requestStandard id timed) else none
  | .write request => do
    let r ← s.requests.get request
    if r.write ≠ .registered then none
    else if s.connection = .connected then
      some { s.update request (fun r => { r with write := .draining }) with
        inFlight := s.inFlight ++ [(r.id, request)] }
    else some (s.update request fun r => { r.setDone with write := .done })
  | .writeDone request ok => do
    let r ← s.requests.get request
    if r.write ≠ .draining then none
    else some (s.update request fun r =>
      { (if ok then r else r.setDone) with write := .done })
  | .respond message =>
    if message ∈ s.inFlight then
      some ({ s with inFlight := s.inFlight.erase message }.processCommand message.1 message.2)
    else none
  | .lose message => some { s with inFlight := s.inFlight.erase message }
  | .finish request => do
    let r ← s.requests.get request
    if r.waiting = true ∧ r.fut = .done then some (s.endRequest request r) else none
  | .timeout request => do
    let r ← s.requests.get request
    if r.waiting = true ∧ r.fut = .pending ∧ r.timed = true then
      some ((s.update request KlippyRequest.setDone).endRequest request r)
    else none
  | .cancel request => do
    let r ← s.requests.get request
    if r.waiting = true then some (s.endRequest request r) else none
  | .close => if s.connection = .connected then some { s with connection := .closing } else none
  | .connectionClosed => if s.connection = .closing then some s.onConnectionClosed else none
  | .connect => if s.connection = .closed then some { s with connection := .connected } else none

/-! ## The invariant -/

/-- What holds in every state: live requests have different ids, a pending one has a task that
waits, and an answer that comes with the id of a live request is one to it. -/
structure Matched (s : RequestState) : Prop where
  ids : ∀ a b r r', s.requests.get a = some r → s.requests.get b = some r' → r.id = r'.id → a = b
  pending : ∀ id a, s.pendingRequests.get id = some a →
    ∃ r, s.requests.get a = some r ∧ r.id = id ∧ r.waiting = true
  flight : ∀ m ∈ s.inFlight, ∀ a r, s.requests.get a = some r → r.id = m.1 → a = m.2
  fresh : ∀ a r, s.requests.get a = some r → a < s.next
  own : ∀ c ∈ s.completed, c.1 = c.2

theorem get_update {s : RequestState} (request : ℕ) {b : ℕ} {f : KlippyRequest → KlippyRequest}
    (hf : ∀ r, (f r).id = r.id) {r' : KlippyRequest}
    (h : (s.update request f).requests.get b = some r') :
    ∃ r, s.requests.get b = some r ∧ r'.id = r.id := by
  rw [update] at h
  split at h
  · exact ⟨r', h, rfl⟩
  · rename_i r hr
    by_cases hb : b = request
    · subst hb
      refine ⟨r, hr, ?_⟩
      dsimp only at h
      split at h
      · rw [Dict.get_set, if_pos rfl] at h
        rw [← Option.some.inj h, hf]
      · rw [Dict.get_erase, if_pos rfl] at h
        cases h
    · dsimp only at h
      split at h
      · rw [Dict.get_set, if_neg hb] at h
        exact ⟨r', h, rfl⟩
      · rw [Dict.get_erase, if_neg hb] at h
        exact ⟨r', h, rfl⟩

/-- A request that still waits is not freed. -/
theorem exists_get_update {s : RequestState} (request : ℕ) {b : ℕ} {f : KlippyRequest → KlippyRequest}
    (hf : ∀ r, (f r).id = r.id) {r : KlippyRequest} (hr : s.requests.get b = some r)
    (hwaiting : r.waiting = true) (hkeep : b = request → (f r).waiting = true) :
    ∃ r', (s.update request f).requests.get b = some r' ∧ r'.id = r.id ∧ r'.waiting = true := by
  rw [update]
  split
  · exact ⟨r, hr, rfl, hwaiting⟩
  · rename_i r₀ hr₀
    by_cases hb : b = request
    · subst hb
      obtain rfl := Option.some.inj (hr.symm.trans hr₀)
      have hlive : (f r).live = true := by
        rw [KlippyRequest.live, hkeep rfl]
        rfl
      refine ⟨f r, ?_, hf r, hkeep rfl⟩
      rw [if_pos hlive, Dict.get_set, if_pos rfl]
    · refine ⟨r, ?_, rfl, hwaiting⟩
      dsimp only
      split
      · rw [Dict.get_set, if_neg hb, hr]
      · rw [Dict.get_erase, if_neg hb, hr]

theorem update_frame (s : RequestState) (request : ℕ) (f : KlippyRequest → KlippyRequest) :
    (s.update request f).pendingRequests = s.pendingRequests ∧
    (s.update request f).inFlight = s.inFlight ∧ (s.update request f).next = s.next ∧
    (s.update request f).completed = s.completed := by
  rw [update]
  split
  · exact ⟨rfl, rfl, rfl, rfl⟩
  · exact ⟨rfl, rfl, rfl, rfl⟩

/-- A change that keeps the id, and the waiting of a request that is pending. -/
theorem Matched.update {s : RequestState} (hs : s.Matched) {request : ℕ}
    {f : KlippyRequest → KlippyRequest} (hf : ∀ r, (f r).id = r.id)
    (hkeep : ∀ id, s.pendingRequests.get id = some request → ∀ r, (f r).waiting = r.waiting) :
    (s.update request f).Matched := by
  obtain ⟨hpending, hflight, hnext, hcompleted⟩ := update_frame s request f
  refine ⟨fun a b r r' ha hb hid => ?_, fun id a ha => ?_, fun m hm a r ha hid => ?_,
    fun a r ha => ?_, hcompleted ▸ hs.own⟩
  · obtain ⟨r₁, hr₁, hid₁⟩ := get_update request hf ha
    obtain ⟨r₂, hr₂, hid₂⟩ := get_update request hf hb
    exact hs.ids a b r₁ r₂ hr₁ hr₂ (hid₁ ▸ hid₂ ▸ hid)
  · rw [hpending] at ha
    obtain ⟨r, hr, hid, hwaiting⟩ := hs.pending id a ha
    obtain ⟨r', hr', hid', hwaiting'⟩ := exists_get_update request hf hr
        hwaiting fun heq => by
      subst heq
      exact (hkeep id ha r).trans hwaiting
    exact ⟨r', hr', hid'.trans hid, hwaiting'⟩
  · rw [hflight] at hm
    obtain ⟨r₁, hr₁, hid₁⟩ := get_update request hf ha
    exact hs.flight m hm a r₁ hr₁ (hid₁ ▸ hid)
  · obtain ⟨r₁, hr₁, -⟩ := get_update request hf ha
    rw [hnext]
    exact hs.fresh a r₁ hr₁

theorem Matched.setDone {s : RequestState} (hs : s.Matched) (request : ℕ) :
    (s.update request KlippyRequest.setDone).Matched :=
  hs.update (fun _ => rfl) fun _ _ _ => rfl

theorem Matched.popPending {s : RequestState} (hs : s.Matched) (id : ℕ) :
    (s.popPending id).Matched := by
  refine ⟨hs.ids, fun id' a ha => ?_, hs.flight, hs.fresh, hs.own⟩
  rw [RequestState.popPending, Dict.get_erase] at ha
  split at ha
  · cases ha
  · exact hs.pending id' a ha

theorem Matched.endRequest {s : RequestState} (hs : s.Matched) {request : ℕ} {r r' : KlippyRequest}
    (hr : s.requests.get request = some r') (hid : r'.id = r.id) :
    (s.endRequest request r).Matched := by
  refine (hs.popPending r.id).update (fun _ => rfl) fun id hget => ?_
  rw [RequestState.popPending, Dict.get_erase] at hget
  split at hget
  · cases hget
  · rename_i hne
    obtain ⟨r₁, hr₁, hid₁, -⟩ := hs.pending id request hget
    obtain rfl := Option.some.inj (hr.symm.trans hr₁)
    exact absurd (hid₁.symm.trans hid) hne

theorem Matched.processCommand {s : RequestState} (hs : s.Matched) {id origin : ℕ}
    (hflight : ∀ a r, s.requests.get a = some r → r.id = id → a = origin) :
    (s.processCommand id origin).Matched := by
  rw [RequestState.processCommand]
  split
  · exact hs
  · rename_i request hrequest
    split
    · have hdone := (hs.popPending id).setDone request
      refine ⟨hdone.ids, hdone.pending, hdone.flight, hdone.fresh, fun c hc => ?_⟩
      obtain hc | hc := List.mem_append.mp hc
      · exact hs.own c hc
      · obtain rfl := List.mem_singleton.mp hc
        obtain ⟨r, hr, hid, -⟩ := hs.pending id request hrequest
        exact hflight request r hr hid
    · exact hs.popPending id

theorem Matched.onConnectionClosed {s : RequestState} (hs : s.Matched) :
    s.onConnectionClosed.Matched := by
  have hall : ∀ (entries : List (ℕ × ℕ)) (s : RequestState), s.Matched →
      (entries.foldl (fun s entry => s.update entry.2 KlippyRequest.setDone) s).Matched := by
    intro entries
    induction entries with
    | nil => exact fun s hs => hs
    | cons entry entries ih => exact fun s hs => ih _ (hs.setDone entry.2)
  obtain ⟨hids, -, hflight, hfresh, hown⟩ := hall s.pendingRequests.items s hs
  exact ⟨hids, (fun _ _ ha => nomatch ha), hflight, hfresh, hown⟩

/-! ## Answers reach the requests that they answer -/

/-- The condition on a step: a new object does not get the address of a request that klippy may
still answer. -/
def FreshId (s : RequestState) : RequestEvent → Prop
  | .request id _ => ∀ m ∈ s.inFlight, m.1 ≠ id
  | _ => True

theorem matched_init : init.Matched :=
  ⟨(fun _ _ _ _ h => nomatch h), (fun _ _ h => nomatch h), (fun _ h => nomatch h),
    (fun _ _ h => nomatch h), (fun _ h => nomatch h)⟩

theorem Matched.requestStandard {s : RequestState} (hs : s.Matched) {id : ℕ} {timed : Bool}
    (hlive : ∀ entry ∈ s.requests.items, entry.2.id ≠ id) (hfresh : ∀ m ∈ s.inFlight, m.1 ≠ id) :
    (s.requestStandard id timed).Matched := by
  have hget (a : ℕ) (r : KlippyRequest)
      (ha : (s.requests.set s.next (.new id timed)).get a = some r) :
      a = s.next ∧ r.id = id ∨ s.requests.get a = some r ∧ r.id ≠ id := by
    rw [Dict.get_set] at ha
    split at ha
    · rename_i hnext
      rw [← Option.some.inj ha]
      exact Or.inl ⟨hnext, rfl⟩
    · exact Or.inr ⟨ha, hlive (a, r) (Dict.get_eq_some_iff.mp ha)⟩
  refine ⟨fun a b r r' ha hb hid => ?_, fun id' a ha => ?_, fun m hm a r ha hid => ?_,
    fun a r ha => ?_, hs.own⟩
  · obtain ⟨hnext, hr⟩ | ⟨hr, hne⟩ := hget a r ha
    · obtain ⟨hnext', -⟩ | ⟨-, hne'⟩ := hget b r' hb
      · rw [hnext, hnext']
      · exact absurd (hid.symm.trans hr) hne'
    · obtain ⟨-, hr'⟩ | ⟨hr', -⟩ := hget b r' hb
      · exact absurd (hid.trans hr') hne
      · exact hs.ids a b r r' hr hr' hid
  · rw [RequestState.requestStandard, Dict.get_set] at ha
    split at ha
    · rename_i hid
      obtain rfl := Option.some.inj ha
      refine ⟨.new id timed, ?_, hid.symm, rfl⟩
      rw [RequestState.requestStandard, Dict.get_set, if_pos rfl]
    · obtain ⟨r, hr, hid, hwaiting⟩ := hs.pending id' a ha
      refine ⟨r, ?_, hid, hwaiting⟩
      rw [RequestState.requestStandard, Dict.get_set, if_neg (Nat.ne_of_lt (hs.fresh a r hr)), hr]
  · obtain ⟨-, hr⟩ | ⟨hr, -⟩ := hget a r ha
    · exact absurd (hid.symm.trans hr) (hfresh m hm)
    · exact hs.flight m hm a r hr hid
  · obtain ⟨rfl, -⟩ | ⟨hr, -⟩ := hget a r ha
    · exact Nat.lt_succ_self _
    · exact Nat.lt_succ_of_lt (hs.fresh a r hr)

theorem Matched.eraseMessage {s : RequestState} (hs : s.Matched) (message : ℕ × ℕ) :
    { s with inFlight := s.inFlight.erase message }.Matched :=
  ⟨hs.ids, hs.pending, fun m hm => hs.flight m (List.mem_of_mem_erase hm), hs.fresh, hs.own⟩

theorem Matched.write {s : RequestState} (hs : s.Matched) {request : ℕ} {r : KlippyRequest}
    (hr : s.requests.get request = some r) :
    { s.update request (fun r => { r with write := .draining }) with
      inFlight := s.inFlight ++ [(r.id, request)] }.Matched := by
  have hupdate : (s.update request fun r => { r with write := .draining }).Matched :=
    hs.update (fun _ => rfl) fun _ _ _ => rfl
  refine ⟨hupdate.ids, hupdate.pending, fun m hm a r' ha hid => ?_, hupdate.fresh, hupdate.own⟩
  obtain ⟨r₁, hr₁, hid₁⟩ := get_update (s := s) request
    (f := fun r => { r with write := .draining }) (fun _ => rfl) ha
  obtain hm | hm := List.mem_append.mp hm
  · exact hs.flight m hm a r₁ hr₁ (hid₁ ▸ hid)
  · obtain rfl := List.mem_singleton.mp hm
    exact hs.ids a request r₁ r hr₁ hr (hid₁ ▸ hid)

theorem matched_step {s t : RequestState} (hs : s.Matched) {e : RequestEvent}
    (hstep : s.step e = some t) (hcond : s.FreshId e) : t.Matched := by
  cases e with
  | request id timed =>
    rw [step] at hstep
    split at hstep
    · rename_i hlive
      rw [← Option.some.inj hstep]
      exact hs.requestStandard hlive hcond
    · cases hstep
  | write request =>
    obtain ⟨r, hr, hstep⟩ := Option.bind_eq_some_iff.mp hstep
    split at hstep
    · cases hstep
    · split at hstep
      · rw [← Option.some.inj hstep]
        exact hs.write hr
      · rw [← Option.some.inj hstep]
        exact hs.update (fun _ => rfl) fun _ _ _ => rfl
  | writeDone request ok =>
    obtain ⟨r, hr, hstep⟩ := Option.bind_eq_some_iff.mp hstep
    split at hstep
    · cases hstep
    · rw [← Option.some.inj hstep]
      apply hs.update
      · intro r
        cases ok
        · rfl
        · rfl
      · intro _ _ r
        cases ok
        · rfl
        · rfl
  | respond message =>
    rw [step] at hstep
    split at hstep
    · rename_i hmessage
      rw [← Option.some.inj hstep]
      exact (hs.eraseMessage message).processCommand (hs.flight message hmessage)
    · cases hstep
  | lose message =>
    rw [← Option.some.inj hstep]
    exact hs.eraseMessage message
  | finish request =>
    obtain ⟨r, hr, hstep⟩ := Option.bind_eq_some_iff.mp hstep
    split at hstep
    · rw [← Option.some.inj hstep]
      exact hs.endRequest hr rfl
    · cases hstep
  | timeout request =>
    obtain ⟨r, hr, hstep⟩ := Option.bind_eq_some_iff.mp hstep
    split at hstep
    · rename_i hwaiting
      rw [← Option.some.inj hstep]
      obtain ⟨r', hr', hid, -⟩ := exists_get_update request (f := KlippyRequest.setDone)
        (fun _ => rfl) hr
        hwaiting.1 fun _ => hwaiting.1
      exact (hs.setDone request).endRequest hr' hid
    · cases hstep
  | cancel request =>
    obtain ⟨r, hr, hstep⟩ := Option.bind_eq_some_iff.mp hstep
    split at hstep
    · rw [← Option.some.inj hstep]
      exact hs.endRequest hr rfl
    · cases hstep
  | close =>
    rw [step] at hstep
    split at hstep
    · rw [← Option.some.inj hstep]
      exact ⟨hs.ids, hs.pending, hs.flight, hs.fresh, hs.own⟩
    · cases hstep
  | connectionClosed =>
    rw [step] at hstep
    split at hstep
    · rw [← Option.some.inj hstep]
      exact hs.onConnectionClosed
    · cases hstep
  | connect =>
    rw [step] at hstep
    split at hstep
    · rw [← Option.some.inj hstep]
      exact ⟨hs.ids, hs.pending, hs.flight, hs.fresh, hs.own⟩
    · cases hstep

/-- **Answers reach the requests that they answer**, in every run in which no new request gets
the id of one that klippy may still answer. -/
theorem own_response_of_freshId {es : List RequestEvent} {t : RequestState}
    (h : Run (fun s e t => s.step e = some t ∧ s.FreshId e) init es t) :
    ∀ c ∈ t.completed, c.1 = c.2 :=
  (h.invariant matched_init fun _ _ _ hs hstep => matched_step hs hstep.1 hstep.2).own

/-- Two requests, of which the first is a subscription that times out before its answer is
read. -/
def lateAnswer (id id' : ℕ) : List RequestEvent :=
  [.connect, .request id true, .write 0, .writeDone 0 true, .timeout 0, .request id' false,
    .write 1, .writeDone 1 true, .respond (id, 0)]

instance (s : RequestState) : (e : RequestEvent) → Decidable (s.FreshId e)
  | .request id _ => inferInstanceAs (Decidable (∀ m ∈ s.inFlight, m.1 ≠ id))
  | .write _ | .writeDone _ _ | .respond _ | .lose _ | .finish _ | .timeout _ | .cancel _
  | .close | .connectionClosed | .connect => inferInstanceAs (Decidable True)

theorem own_response_of_two_ids : ∃ t : RequestState, t.completed ≠ [] ∧
    ∀ c ∈ t.completed, c.1 = c.2 := by
  obtain ⟨t, hrun, ht⟩ := Run.exists_of_any (s := init)
    (f := fun s e => if s.FreshId e then s.step e else none)
    (l := lateAnswer 64 96 ++ [.respond (96, 1), .finish 1])
    (P := fun t => !t.completed.isEmpty) (by decide)
  refine ⟨t, fun hnil => ?_, own_response_of_freshId (hrun.mono fun s e t hstep => ?_)⟩
  · rw [hnil] at ht
    cases ht
  · split at hstep
    · next hcond => exact ⟨hstep, hcond⟩
    · cases hstep

/-- The object of the second request gets the address of the first one. -/
theorem foreign_response_of_reused_id : ∃ t : RequestState,
    Run (fun s e t => s.step e = some t) init (lateAnswer 64 64) t ∧ (1, 0) ∈ t.completed := by
  obtain ⟨t, hrun, ht⟩ := Run.exists_of_any (f := step) (s := init) (l := lateAnswer 64 64)
    (P := fun t => decide ((1, 0) ∈ t.completed)) (by decide)
  exact ⟨t, hrun, of_decide_eq_true ht⟩

end RequestState

end FlsunT1.Moonraker
