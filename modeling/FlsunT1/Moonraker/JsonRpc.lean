/-
  Moonraker/JsonRpc.lean --- dispatch of JSON-RPC messages (moonraker/common.py).

  A message is one element or a list of them.  Each element is answered on its own, in order:
  a callback runs until it returns or raises before the next element is looked at.  What other
  connections do meanwhile is part of what the callback does to the state.
-/
import FlsunT1.Library.Table
import FlsunT1.Moonraker.Database

set_option autoImplicit false

namespace FlsunT1.Moonraker

open Library

/-! ## Messages -/

/-- How the call of a method ends: `F` are the floating point numbers, `ρ` what callbacks return. -/
inductive RpcOutcome (ρ : Type) where
  | returns (result : ρ)
  | typeError (message : String)
  | serverError (message : String) (statusCode : ℤ)
  | exception (message : String)

/-- What `build_result` and `build_error` make. -/
inductive RpcReply (F ρ : Type) where
  | result (result : ρ) (id : Value F)
  | error (code : ℤ) (message : String) (id : Value F)

/-- What `dispatch` encodes: one reply, or a list. -/
inductive RpcMessage (F ρ : Type) where
  | single (reply : RpcReply F ρ)
  | batch (replies : List (RpcReply F ρ))

/-- What a pending call is resolved with: the result, or `ServerError`, with the text
"`name` rpc error: `code` `message`" and the status 418.  A code that is not given is -32600, and
a message that is not given says "Invalid Response". -/
inductive RpcResolution (F : Type) where
  | result (result : Value F)
  | error (name : String) (code message : Option (Value F))

/-- The calls that the connection has sent, as futures under their ids, and what was resolved. -/
structure RpcState (F σ : Type) where
  pendingResponses : Table ℤ ℕ
  resolved : List (ℕ × RpcResolution F)
  world : σ

/-- What ends a dispatch. -/
inductive RpcException where
  /-- an element without `get` -/
  | attributeError
  /-- an id that cannot be a key, and parameters that cannot be searched -/
  | typeError
  /-- a reply that cannot be encoded -/
  | encodeError
  deriving DecidableEq

/-- The members of an object. -/
abbrev RpcObject (F : Type) := List (String × Value F)

/-- A callback gets the parameters, and the connection under its name if there is one. -/
abbrev RpcCallback (F ρ σ : Type) :=
  RpcObject F → Option String → RpcState F σ → RpcOutcome ρ × RpcState F σ

/-- `class JsonRPC`, with the JSON codec: `encodable` says which results `jsonw.dumps` takes, and
`intOf` is the integer that a number is equal to. -/
structure JsonRpc (F ρ σ : Type) where
  methods : String → Option (RpcCallback F ρ σ)
  verbose : Bool
  loads : String → Option (Value F)
  encodable : ρ → Bool
  intOf : F → Option ℤ

variable {F ρ σ : Type}

/-- The object has the version of the protocol. -/
def isVersion2 (obj : RpcObject F) : Bool :=
  match obj.lookup "jsonrpc" with
  | some (.str version) => version == "2.0"
  | _ => false

/-- `obj.get('id', None)` -/
def requestId (obj : RpcObject F) : Value F := (obj.lookup "id").getD .null

/-- `params`, where they are an object. -/
def requestParams (obj : RpcObject F) : Option (RpcObject F) :=
  match obj.lookup "params" with
  | none => some []
  | some (.dict params) => some params
  | some _ => none

/-- `field in params` and the assignment that follows raise for one of the secret fields. -/
def searchFails : Value F → Bool
  | .dict _ => false
  | .list items => items.any fun item =>
      match item with
      | .str s => s == "access_token" || s == "api_key"
      | _ => false
  | .str s => decide ("access_token".toList <:+: s.toList) || decide ("api_key".toList <:+: s.toList)
  | _ => true

/-- The requests whose results are not logged. -/
def sanitizes (name : String) : Bool :=
  "access.".toList.isPrefixOf name.toList || name == "machine.sudo.password"

namespace RpcState

/-- `resolve_pending_response`, for the id `n`. -/
def resolve (n : ℤ) (r : RpcResolution F) (st : RpcState F σ) : RpcState F σ :=
  match st.pendingResponses.get n with
  | none => st
  | some fut =>
    { st with
      pendingResponses := st.pendingResponses.erase n
      resolved := st.resolved ++ [(fut, r)] }

end RpcState

/-- The error that a call is answered with, or its result. -/
def RpcOutcome.reply (id : Value F) : RpcOutcome ρ → RpcReply F ρ
  | .returns result => .result result id
  | .typeError message => .error (-32602) ("Invalid params:\n" ++ message) id
  | .serverError message statusCode =>
      .error (if statusCode = 404 then -32601 else if statusCode = 401 then -32602 else statusCode)
        message id
  | .exception message => .error (-31000) message id

/-- What a response says. -/
def rpcResolution (name : String) (obj : RpcObject F) : RpcResolution F :=
  match (obj.lookup "result").getD .null with
  | .null =>
    match obj.lookup "error" with
    | some (.dict error) => .error name (error.lookup "code") (error.lookup "message")
    | _ => .error name none none
  | result => .result result

namespace JsonRpc

variable (rpc : JsonRpc F ρ σ) (conn : Option String)

/-! ## Dispatch -/

/-- `_log_request`; it says whether the response is sanitized. -/
def logRequest (item : Value F) : Except RpcException Bool :=
  if rpc.verbose = false then .ok false
  else
    match item with
    | .dict obj =>
      match obj.lookup "method" with
      | some (.str name) =>
        if sanitizes name then .ok true
        else if name == "server.connection.identify" &&
            searchFails ((obj.lookup "params").getD (.dict [])) then .error .typeError
        else .ok false
      | _ => .ok false
    | _ => .error .attributeError

/-- `jsonw.dumps` takes the reply. -/
def encodes : RpcReply F ρ → Bool
  | .result result _ => rpc.encodable result
  | .error _ _ _ => true

/-- `_log_response` -/
def logResponse (sanitized : Bool) (reply : RpcReply F ρ) : Except RpcException Unit :=
  if rpc.verbose && !sanitized && !rpc.encodes reply then .error .encodeError else .ok ()

/-- The key of a dictionary that a value is, which has to be hashable. -/
def keyOf : Value F → Except RpcException (Option ℤ)
  | .bool b => .ok (some (if b then 1 else 0))
  | .int n => .ok (some n)
  | .float x => .ok (rpc.intOf x)
  | .list _ => .error .typeError
  | .dict _ => .error .typeError
  | _ => .ok none

/-- `process_response` -/
def processResponse (obj : RpcObject F) (st : RpcState F σ) :
    Except RpcException (RpcState F σ) :=
  match conn with
  | none => .ok st
  | some name =>
    match rpc.keyOf (requestId obj) with
    | .error e => .error e
    | .ok none => .ok st
    | .ok (some n) => .ok (st.resolve n (rpcResolution name obj))

/-- `execute_method` -/
def executeMethod (callback : RpcCallback F ρ σ) (reqId : Value F) (params : RpcObject F)
    (st : RpcState F σ) : Option (RpcReply F ρ) × RpcState F σ :=
  let called := callback params conn st
  match called.1 with
  | .returns result => (if reqId.isNull then none else some (.result result reqId), called.2)
  | outcome => (some (outcome.reply reqId), called.2)

/-- `process_object` -/
def processObject (item : Value F) (st : RpcState F σ) :
    Except RpcException (Option (RpcReply F ρ) × RpcState F σ) :=
  match item with
  | .dict obj =>
    if isVersion2 obj = false then
      .ok (some (.error (-32600) "Invalid Request" (requestId obj)), st)
    else
      match obj.lookup "method" with
      | none => (rpc.processResponse conn obj st).map (none, ·)
      | some (.str name) =>
        match rpc.methods name with
        | none => .ok (some (.error (-32601) "Method not found" (requestId obj)), st)
        | some callback =>
          match requestParams obj with
          | none => .ok (some (.error (-32602) "Invalid params:" (requestId obj)), st)
          | some params => .ok (executeMethod conn callback (requestId obj) params st)
      | some _ => .ok (some (.error (-32600) "Invalid Request" (requestId obj)), st)
  | _ => .error .attributeError

/-- An element, with what is logged of it. -/
def processItem (item : Value F) (st : RpcState F σ) :
    Except RpcException (Option (RpcReply F ρ) × RpcState F σ) :=
  match rpc.logRequest item with
  | .error e => .error e
  | .ok sanitized =>
    match rpc.processObject conn item st with
    | .error e => .error e
    | .ok (none, st) => .ok (none, st)
    | .ok (some reply, st) => (rpc.logResponse sanitized reply).map fun _ => (some reply, st)

/-- The loop over the elements of a list. -/
def processItems : List (Value F) → RpcState F σ →
    Except RpcException (List (RpcReply F ρ) × RpcState F σ)
  | [], st => .ok ([], st)
  | item :: items, st =>
    match rpc.processItem conn item st with
    | .error e => .error e
    | .ok (reply, st) => (processItems items st).map fun r => (reply.toList ++ r.1, r.2)

/-- `dispatch`, up to the encoding of the reply -/
def dispatch (data : String) (st : RpcState F σ) :
    Except RpcException (Option (RpcMessage F ρ) × RpcState F σ) :=
  match rpc.loads data with
  | none => .ok (some (.single (.error (-32700) "Parse error" .null)), st)
  | some (.list items) =>
    match rpc.processItems conn items st with
    | .error e => .error e
    | .ok ([], st) => .ok (none, st)
    | .ok (reply :: replies, st) =>
      if (reply :: replies).all rpc.encodes then .ok (some (.batch (reply :: replies)), st)
      else .error .encodeError
  | some item =>
    match rpc.processItem conn item st with
    | .error e => .error e
    | .ok (none, st) => .ok (none, st)
    | .ok (some reply, st) =>
      if rpc.encodes reply then .ok (some (.single reply), st) else .error .encodeError

/-! ## What is to be answered -/

/-- The elements: what is no valid object, responses, and requests, whose id is not given for a
notification. -/
inductive Element (F : Type) where
  | invalid (id : Value F)
  | response (obj : RpcObject F)
  | request (name : String) (id : Option (Value F)) (params : Option (RpcObject F))

/-- What an element is. -/
def classify : Value F → Element F
  | .dict obj =>
    if isVersion2 obj = false then .invalid (requestId obj)
    else
      match obj.lookup "method" with
      | none => .response obj
      | some (.str name) => .request name (obj.lookup "id") (requestParams obj)
      | some _ => .invalid (requestId obj)
  | _ => .invalid .null

/-- What a response does: it resolves the call with its id, if there is one. -/
def respond (obj : RpcObject F) (st : RpcState F σ) : RpcState F σ :=
  match conn, rpc.keyOf (requestId obj) with
  | some name, .ok (some n) => st.resolve n (rpcResolution name obj)
  | _, _ => st

/-- The replies that an element gets, one or none.  A request gets one with its id, and a
notification none, except that the method it names is not there. -/
def answer : Element F → RpcState F σ → List (RpcReply F ρ) × RpcState F σ
  | .invalid id, st => ([.error (-32600) "Invalid Request" id], st)
  | .response obj, st => ([], rpc.respond conn obj st)
  | .request name id params, st =>
    match rpc.methods name with
    | none => ([.error (-32601) "Method not found" (id.getD .null)], st)
    | some callback =>
      match params with
      | none => (id.toList.map (.error (-32602) "Invalid params:"), st)
      | some params =>
        let called := callback params conn st
        (id.toList.map called.1.reply, called.2)

/-- The replies to a list, in the order of its elements. -/
def answers : List (Value F) → RpcState F σ → List (RpcReply F ρ) × RpcState F σ
  | [], st => ([], st)
  | item :: items, st =>
    let first := rpc.answer conn (classify item) st
    let rest := answers items first.2
    (first.1 ++ rest.1, rest.2)

/-- What a dispatch owes. -/
def expected (data : String) (st : RpcState F σ) : Option (RpcMessage F ρ) × RpcState F σ :=
  match rpc.loads data with
  | none => (some (.single (.error (-32700) "Parse error" .null)), st)
  | some (.list items) =>
    let replies := rpc.answers conn items st
    (if replies.1.isEmpty then none else some (.batch replies.1), replies.2)
  | some item =>
    let replies := rpc.answer conn (classify item) st
    (replies.1.head?.map .single, replies.2)

/-- The request is answered as it should be: a notification does not fail, one with the id `null`
does, and the result of any other can be encoded. -/
def Answered (callback : RpcCallback F ρ σ) (id : Option (Value F)) (params : Option (RpcObject F))
    (st : RpcState F σ) : Prop :=
  match params with
  | none => id ≠ none
  | some params =>
    match id with
    | none => ∃ result, (callback params conn st).1 = .returns result
    | some .null => ∀ result, (callback params conn st).1 ≠ .returns result
    | some _ => ∀ result, (callback params conn st).1 = .returns result → rpc.encodable result = true

/-- The condition on an element, by what it is. -/
def Conforms : Element F → RpcState F σ → Prop
  | .invalid _, _ => True
  | .response obj, _ => conn ≠ none → ∃ key, rpc.keyOf (requestId obj) = .ok key
  | .request name id params, st =>
    ∀ callback, rpc.methods name = some callback → rpc.Answered conn callback id params st

/-- An element that is dispatched as it should be: an object, which does not trip the log, and
whose id is no list or object where it answers a call. -/
structure Fine (item : Value F) (st : RpcState F σ) : Prop where
  object : item.isDict = true
  logged : ∃ sanitized, rpc.logRequest item = .ok sanitized
  conforms : rpc.Conforms conn (classify item) st

/-- Each element of a list is, in the state that the ones before it leave. -/
def AllFine : List (Value F) → RpcState F σ → Prop
  | [], _ => True
  | item :: items, st =>
    rpc.Fine conn item st ∧ AllFine items (rpc.answer conn (classify item) st).2

/-- The condition on a text: all its elements are dispatched as they should be. -/
def Dispatchable (data : String) (st : RpcState F σ) : Prop :=
  match rpc.loads data with
  | none => True
  | some (.list items) => rpc.AllFine conn items st
  | some item => rpc.Fine conn item st

/-! ## One element -/

variable {rpc conn} {item : Value F} {st st' : RpcState F σ}

/-- Errors count for, and results against: an element gets at least the balance it is owed. -/
def balance : List (RpcReply F ρ) → ℤ
  | [] => 0
  | .result _ _ :: replies => balance replies - 1
  | .error _ _ _ :: replies => balance replies + 1

theorem balance_append (l l' : List (RpcReply F ρ)) :
    balance (l ++ l') = balance l + balance l' := by
  induction l with
  | nil => simp [balance]
  | cons reply l ih =>
    cases reply <;> simp only [List.cons_append, balance, ih] <;> omega

/-- `process_object`, by what the element is. -/
def processElement (rpc : JsonRpc F ρ σ) (conn : Option String) :
    Element F → RpcState F σ → Except RpcException (Option (RpcReply F ρ) × RpcState F σ)
  | .invalid id, st => .ok (some (.error (-32600) "Invalid Request" id), st)
  | .response obj, st => (rpc.processResponse conn obj st).map (none, ·)
  | .request name id params, st =>
    match rpc.methods name with
    | none => .ok (some (.error (-32601) "Method not found" (id.getD .null)), st)
    | some callback =>
      match params with
      | none => .ok (some (.error (-32602) "Invalid params:" (id.getD .null)), st)
      | some params => .ok (executeMethod conn callback (id.getD .null) params st)

theorem processObject_eq (hobject : item.isDict = true) :
    rpc.processObject conn item st = processElement rpc conn (classify item) st := by
  cases item with
  | dict obj =>
    simp only [processObject, classify]
    split
    · rfl
    · cases obj.lookup "method" with
      | none => rfl
      | some method => cases method <;> rfl
  | _ => cases hobject

theorem isDict_of_processObject {r : Option (RpcReply F ρ)}
    (h : rpc.processObject conn item st = .ok (r, st')) : item.isDict = true := by
  cases item with
  | dict obj => rfl
  | _ => cases h

/-- What was done is what is owed, or more errors and fewer results than that, and an element
that got all that it is owed conforms. -/
structure Compares (rpc : JsonRpc F ρ σ) (conn : Option String) (element : Element F)
    (st : RpcState F σ) (r : Option (RpcReply F ρ)) (st' : RpcState F σ) : Prop where
  state : st' = (rpc.answer conn element st).2
  le : balance (rpc.answer conn element st).1 ≤ balance r.toList
  conforms : balance r.toList = balance (rpc.answer conn element st).1 →
    (∀ reply ∈ r, rpc.encodes reply = true) → rpc.Conforms conn element st

variable (conn st) in
theorem executeMethod_compares {callback : RpcCallback F ρ σ} {name : String}
    (hname : rpc.methods name = some callback) (id : Option (Value F)) (params : RpcObject F) :
    let done := executeMethod conn callback (id.getD .null) params st
    let owed := rpc.answer conn (.request name id (some params)) st
    done.2 = owed.2 ∧ balance owed.1 ≤ balance done.1.toList ∧
      (balance done.1.toList = balance owed.1 → (∀ reply ∈ done.1, rpc.encodes reply = true) →
        rpc.Answered conn callback id (some params) st) := by
  simp only [executeMethod, answer, hname]
  cases hcall : (callback params conn st).1 with
  | returns result =>
    cases id with
    | none => simp [balance, Value.isNull, Answered, hcall]
    | some id =>
      cases id <;> simp [balance, Value.isNull, Answered, hcall, RpcOutcome.reply, encodes]
  | typeError message =>
    cases id with
    | none => simp [balance, RpcOutcome.reply]
    | some id => cases id <;> simp [balance, RpcOutcome.reply, Answered, hcall]
  | serverError message statusCode =>
    cases id with
    | none => simp [balance, RpcOutcome.reply]
    | some id => cases id <;> simp [balance, RpcOutcome.reply, Answered, hcall]
  | exception message =>
    cases id with
    | none => simp [balance, RpcOutcome.reply]
    | some id => cases id <;> simp [balance, RpcOutcome.reply, Answered, hcall]

/-- An answered request gets what it is owed. -/
theorem executeMethod_of_answered {callback : RpcCallback F ρ σ} {params : RpcObject F}
    {name : String} {id : Option (Value F)} (hname : rpc.methods name = some callback)
    (h : rpc.Answered conn callback id (some params) st) :
    ∃ r, executeMethod conn callback (id.getD .null) params st =
        (r, (rpc.answer conn (.request name id (some params)) st).2) ∧
      r.toList = (rpc.answer conn (.request name id (some params)) st).1 ∧
      ∀ reply ∈ r, rpc.encodes reply = true := by
  simp only [executeMethod, answer, hname]
  cases id with
  | none =>
    obtain ⟨result, hcall⟩ := h
    exact ⟨none, by simp [hcall, Value.isNull]⟩
  | some id =>
    refine ⟨some ((callback params conn st).1.reply id), ?_, rfl, ?_⟩
    · cases hcall : (callback params conn st).1 with
      | returns result =>
        cases id with
        | null => exact absurd hcall (h result)
        | _ => rfl
      | _ => rfl
    · rintro reply ⟨⟩
      cases hcall : (callback params conn st).1 with
      | returns result =>
        cases id with
        | null => exact absurd hcall (h result)
        | _ => exact h result hcall
      | _ => rfl

theorem keyOf_of_response {r : Option (RpcReply F ρ)} {obj : RpcObject F}
    (h : processElement rpc conn (.response obj) st = .ok (r, st')) :
    r = none ∧ st' = rpc.respond conn obj st ∧ rpc.Conforms conn (.response obj) st := by
  simp only [processElement, processResponse] at h
  cases conn with
  | none =>
    cases h
    exact ⟨rfl, rfl, fun hconn => absurd rfl hconn⟩
  | some name =>
    cases hkey : rpc.keyOf (requestId obj) with
    | error e =>
      rw [hkey] at h
      cases h
    | ok key =>
      have hconforms : rpc.Conforms (some name) (.response obj) st := fun _ => ⟨key, hkey⟩
      cases key <;>
      · simp only [hkey] at h
        cases h
        exact ⟨rfl, by simp [respond, hkey], hconforms⟩

/-- An element is never owed more errors than it gets, or fewer results. -/
theorem processElement_compares {r : Option (RpcReply F ρ)} {element : Element F}
    (h : processElement rpc conn element st = .ok (r, st')) :
    Compares rpc conn element st r st' := by
  cases element with
  | invalid id =>
    cases h
    exact ⟨rfl, le_rfl, fun _ _ => trivial⟩
  | response obj =>
    obtain ⟨rfl, rfl, hconforms⟩ := keyOf_of_response h
    exact ⟨rfl, le_rfl, fun _ _ => hconforms⟩
  | request name id params =>
    simp only [processElement] at h
    cases hname : rpc.methods name with
    | none =>
      simp only [hname] at h
      cases h
      refine ⟨?_, ?_, fun _ _ callback hcallback => ?_⟩
      · simp [answer, hname]
      · simp [answer, hname]
      · simp [hname] at hcallback
    | some callback =>
      cases params with
      | none =>
        simp only [hname] at h
        cases h
        refine ⟨by simp [answer, hname], ?_, fun hbalance _ callback' _ => ?_⟩
        · cases id <;> simp [answer, hname, balance]
        · rintro rfl
          simp [answer, hname, balance] at hbalance
      | some params =>
        simp only [hname, Except.ok.injEq] at h
        have key := executeMethod_compares conn st hname id params
        simp only [h] at key
        refine ⟨key.1, key.2.1, fun hbalance hencodes callback' hcallback' => ?_⟩
        obtain rfl : callback = callback' := by simpa [hname] using hcallback'
        exact key.2.2 hbalance hencodes

/-- An element that conforms gets what it is owed. -/
theorem processElement_of_conforms {element : Element F} (h : rpc.Conforms conn element st) :
    ∃ r, processElement rpc conn element st = .ok (r, (rpc.answer conn element st).2) ∧
      r.toList = (rpc.answer conn element st).1 ∧ ∀ reply ∈ r, rpc.encodes reply = true := by
  cases element with
  | invalid id => exact ⟨_, rfl, rfl, by rintro reply ⟨⟩; rfl⟩
  | response obj =>
    refine ⟨none, ?_, rfl, by simp⟩
    cases conn with
    | none => rfl
    | some name =>
      obtain ⟨key, hkey⟩ := h (by simp)
      cases key <;> simp [processElement, processResponse, answer, respond, hkey, Except.map]
  | request name id params =>
    cases hname : rpc.methods name with
    | none =>
      refine ⟨some (.error (-32601) "Method not found" (id.getD .null)), ?_, ?_, ?_⟩
      · simp [processElement, answer, hname]
      · simp [answer, hname]
      · rintro reply ⟨⟩
        rfl
    | some callback =>
      have hanswered := h callback hname
      cases params with
      | none =>
        obtain ⟨id, rfl⟩ := Option.ne_none_iff_exists'.mp hanswered
        refine ⟨some (.error (-32602) "Invalid params:" id), ?_, ?_, ?_⟩
        · simp [processElement, answer, hname]
        · simp [answer, hname]
        · rintro reply ⟨⟩
          rfl
      | some params =>
        obtain ⟨r, hdone, hrest⟩ := executeMethod_of_answered hname hanswered
        exact ⟨r, by simp only [processElement, hname, hdone], hrest⟩

/-! ## The whole document -/

theorem processItem_inv {r : Option (RpcReply F ρ)}
    (h : rpc.processItem conn item st = .ok (r, st')) :
    (∃ sanitized, rpc.logRequest item = .ok sanitized) ∧
      rpc.processObject conn item st = .ok (r, st') := by
  unfold processItem at h
  cases hlog : rpc.logRequest item with
  | error e =>
    rw [hlog] at h
    cases h
  | ok sanitized =>
    refine ⟨⟨sanitized, rfl⟩, ?_⟩
    cases hobj : rpc.processObject conn item st with
    | error e =>
      rw [hlog, hobj] at h
      cases h
    | ok done =>
      obtain ⟨reply, st''⟩ := done
      cases reply with
      | none => simpa [hlog, hobj] using h
      | some reply =>
        cases hresp : rpc.logResponse sanitized reply with
        | error e => simp [hlog, hobj, hresp, Except.map] at h
        | ok _ => simpa [hlog, hobj, hresp, Except.map] using h

theorem logResponse_of_encodes {sanitized : Bool} {reply : RpcReply F ρ}
    (h : rpc.encodes reply = true) : rpc.logResponse sanitized reply = .ok () := by
  simp [logResponse, h]

theorem processItem_compares {r : Option (RpcReply F ρ)}
    (h : rpc.processItem conn item st = .ok (r, st')) :
    Compares rpc conn (classify item) st r st' := by
  have hobj := (processItem_inv h).2
  rw [processObject_eq (isDict_of_processObject hobj)] at hobj
  exact processElement_compares hobj

theorem fine_of_processItem {r : Option (RpcReply F ρ)}
    (h : rpc.processItem conn item st = .ok (r, st'))
    (hbalance : balance r.toList = balance (rpc.answer conn (classify item) st).1)
    (hencodes : ∀ reply ∈ r, rpc.encodes reply = true) : rpc.Fine conn item st where
  object := isDict_of_processObject (processItem_inv h).2
  logged := (processItem_inv h).1
  conforms := (processItem_compares h).conforms hbalance hencodes

theorem Fine.processItem (h : rpc.Fine conn item st) :
    ∃ r, rpc.processItem conn item st = .ok (r, (rpc.answer conn (classify item) st).2) ∧
      r.toList = (rpc.answer conn (classify item) st).1 ∧
      ∀ reply ∈ r, rpc.encodes reply = true := by
  obtain ⟨sanitized, hlog⟩ := h.logged
  obtain ⟨r, hdone, hreplies, hencodes⟩ := processElement_of_conforms h.conforms
  refine ⟨r, ?_, hreplies, hencodes⟩
  simp only [JsonRpc.processItem, hlog, processObject_eq h.object, hdone]
  cases r with
  | none => rfl
  | some reply =>
    simp only [logResponse_of_encodes (hencodes reply rfl)]
    rfl

/-- The loop never owes more errors than it gives, or fewer results, and where it gives all that
it owes, all the elements are fine. -/
theorem processItems_compares {items : List (Value F)} {replies : List (RpcReply F ρ)}
    (h : rpc.processItems conn items st = .ok (replies, st')) :
    balance (rpc.answers conn items st).1 ≤ balance replies ∧
      (balance replies = balance (rpc.answers conn items st).1 →
        (∀ reply ∈ replies, rpc.encodes reply = true) → rpc.AllFine conn items st) := by
  induction items generalizing st replies with
  | nil =>
    cases h
    exact ⟨le_rfl, fun _ _ => trivial⟩
  | cons item items ih =>
    unfold processItems at h
    cases hitem : rpc.processItem conn item st with
    | error e =>
      rw [hitem] at h
      cases h
    | ok done =>
      obtain ⟨r, st₁⟩ := done
      have hcompare := processItem_compares hitem
      cases hrest : rpc.processItems conn items st₁ with
      | error e =>
        simp only [hitem, hrest] at h
        cases h
      | ok rest =>
        obtain ⟨rest, st₂⟩ := rest
        simp only [hitem, hrest] at h
        cases h
        obtain rfl := hcompare.state
        obtain ⟨hle, hfine⟩ := ih hrest
        have hfirst := hcompare.le
        simp only [answers, balance_append]
        refine ⟨by omega, fun hbalance hencodes => ⟨?_, ?_⟩⟩
        · apply fine_of_processItem hitem (by omega)
          intro reply hreply
          exact hencodes reply (List.mem_append_left _ (Option.mem_toList.mpr hreply))
        · apply hfine (by omega)
          intro reply hreply
          exact hencodes reply (List.mem_append_right _ hreply)

theorem AllFine.processItems {items : List (Value F)} (h : rpc.AllFine conn items st) :
    rpc.processItems conn items st = .ok (rpc.answers conn items st) ∧
      ∀ reply ∈ (rpc.answers conn items st).1, rpc.encodes reply = true := by
  induction items generalizing st with
  | nil => exact ⟨rfl, by simp [answers]⟩
  | cons item items ih =>
    obtain ⟨r, hitem, hreplies, hencodes⟩ := h.1.processItem
    obtain ⟨hrest, hall⟩ := ih h.2
    constructor
    · simp only [JsonRpc.processItems, hitem, hrest, Except.map, answers, hreplies]
    · simp only [answers, ← hreplies, List.mem_append]
      rintro reply (hreply | hreply)
      · exact hencodes reply (Option.mem_toList.mp hreply)
      · exact hall reply hreply

theorem eq_toList_of_head? {element : Element F} {r : Option (RpcReply F ρ)}
    (h : (rpc.answer conn element st).1.head? = r) :
    r.toList = (rpc.answer conn element st).1 := by
  subst h
  cases element with
  | invalid id => rfl
  | response obj => rfl
  | request name id params =>
    cases hname : rpc.methods name with
    | none => simp [answer, hname]
    | some callback => cases params <;> cases id <;> simp [answer, hname]

/-- The dispatch of a document that is no list. -/
def dispatchItem (rpc : JsonRpc F ρ σ) (conn : Option String) (item : Value F)
    (st : RpcState F σ) : Except RpcException (Option (RpcMessage F ρ) × RpcState F σ) :=
  match rpc.processItem conn item st with
  | .error e => .error e
  | .ok (none, st) => .ok (none, st)
  | .ok (some reply, st) =>
    if rpc.encodes reply then .ok (some (.single reply), st) else .error .encodeError

theorem dispatchItem_iff : dispatchItem rpc conn item st =
    .ok ((rpc.answer conn (classify item) st).1.head?.map .single,
      (rpc.answer conn (classify item) st).2) ↔ rpc.Fine conn item st := by
  constructor
  · intro h
    unfold dispatchItem at h
    cases hitem : rpc.processItem conn item st with
    | error e => simp [hitem] at h
    | ok done =>
      obtain ⟨r, st'⟩ := done
      cases r with
      | none =>
        simp only [hitem, Except.ok.injEq, Prod.mk.injEq] at h
        have hhead : (rpc.answer conn (classify item) st).1.head? = none := by
          simpa using h.1.symm
        apply fine_of_processItem hitem
        · rw [eq_toList_of_head? hhead]
        · simp
      | some reply =>
        simp only [hitem] at h
        split at h
        · rename_i hencodes
          simp only [Except.ok.injEq, Prod.mk.injEq] at h
          have hhead : (rpc.answer conn (classify item) st).1.head? = some reply := by
            simpa [eq_comm] using h.1
          apply fine_of_processItem hitem
          · rw [eq_toList_of_head? hhead]
          · rintro reply' ⟨⟩
            exact hencodes
        · cases h
  · intro h
    obtain ⟨r, hitem, hreplies, hencodes⟩ := h.processItem
    simp only [dispatchItem, hitem, ← hreplies]
    cases r with
    | none => rfl
    | some reply => simp [hencodes reply rfl]

/-- The dispatch of a list. -/
def dispatchItems (rpc : JsonRpc F ρ σ) (conn : Option String) (items : List (Value F))
    (st : RpcState F σ) : Except RpcException (Option (RpcMessage F ρ) × RpcState F σ) :=
  match rpc.processItems conn items st with
  | .error e => .error e
  | .ok ([], st) => .ok (none, st)
  | .ok (reply :: replies, st) =>
    if (reply :: replies).all rpc.encodes then .ok (some (.batch (reply :: replies)), st)
    else .error .encodeError

theorem dispatchItems_iff {items : List (Value F)} : dispatchItems rpc conn items st =
    .ok (if (rpc.answers conn items st).1.isEmpty then none
      else some (.batch (rpc.answers conn items st).1), (rpc.answers conn items st).2) ↔
      rpc.AllFine conn items st := by
  constructor
  · intro h
    unfold dispatchItems at h
    cases hitems : rpc.processItems conn items st with
    | error e => simp [hitems] at h
    | ok done =>
      obtain ⟨replies, st'⟩ := done
      cases replies with
      | nil =>
        simp only [hitems, Except.ok.injEq, Prod.mk.injEq] at h
        have hempty : (rpc.answers conn items st).1 = [] := by simpa using h.1
        exact (processItems_compares hitems).2 (by rw [hempty]) (by simp)
      | cons reply replies =>
        simp only [hitems] at h
        split at h
        · rename_i hencodes
          simp only [Except.ok.injEq, Prod.mk.injEq] at h
          have howed : (rpc.answers conn items st).1 = reply :: replies := by
            have := h.1
            split at this
            · cases this
            · simpa [eq_comm] using this
          exact (processItems_compares hitems).2 (by rw [howed]) (by simpa using hencodes)
        · cases h
  · intro h
    obtain ⟨hitems, hencodes⟩ := h.processItems
    unfold dispatchItems
    rw [hitems]
    generalize rpc.answers conn items st = owed at hencodes
    obtain ⟨replies, st'⟩ := owed
    cases replies with
    | nil => rfl
    | cons reply replies =>
      have hall : (reply :: replies).all rpc.encodes = true := List.all_eq_true.mpr hencodes
      simp only [hall, if_true, List.isEmpty_cons, Bool.false_eq_true, if_false]

/-- A dispatch returns exactly what it owes where all the elements are fine, and nowhere else. -/
theorem dispatch_meets_iff (rpc : JsonRpc F ρ σ) (conn : Option String) (data : String)
    (st : RpcState F σ) :
    rpc.dispatch conn data st = .ok (rpc.expected conn data st) ↔
      rpc.Dispatchable conn data st := by
  unfold dispatch expected Dispatchable
  cases rpc.loads data with
  | none => simp
  | some document =>
    cases document with
    | list items => exact dispatchItems_iff
    | _ => exact dispatchItem_iff

/-- A request with an id, and then a number. -/
def requestAndNumber : List (Value Unit) :=
  [.dict [("jsonrpc", .str "2.0"), ("method", .str "server.info"), ("id", .int 1)], .int 5]

/-- A server with one method, and one document that it can read. -/
def serverInfo : JsonRpc Unit String Unit where
  methods name :=
    if name == "server.info" then some fun _ _ st => (.returns "ready", st) else none
  verbose := false
  loads data :=
    if data == "[\x7b\"jsonrpc\": \"2.0\", \"method\": \"server.info\", \"id\": 1\x7d, 5]" then
      some (.list requestAndNumber)
    else none
  encodable _ := true
  intOf _ := none

/-- The number loses the reply to the request before it. -/
theorem reply_lost :
    ∃ data, serverInfo.loads data = some (.list requestAndNumber) ∧
      serverInfo.dispatch none data ⟨∅, [], ()⟩ = .error .attributeError ∧
      (serverInfo.expected none data ⟨∅, [], ()⟩).1 =
        some (.batch [.result "ready" (.int 1), .error (-32600) "Invalid Request" .null]) := by
  refine ⟨"[\x7b\"jsonrpc\": \"2.0\", \"method\": \"server.info\", \"id\": 1\x7d, 5]",
    ?_, ?_, ?_⟩ <;> rfl

end JsonRpc

end FlsunT1.Moonraker
