/-
  Klippy/QueryStatus.lean --- queries and subscriptions of object status
  (class QueryStatusHelper, klippy/webhooks.py).

  A value is an `Option`: an item that is missing and one that is `None` read the
  same.  A request stands in `pending_queries`, then among those that are answered
  while its greenlet has not run again.  The reply and the deltas that a client was
  sent are kept with its entry; the response templates are left out.
-/
import FlsunT1.Library.Dict
import FlsunT1.Library.Run

set_option autoImplicit false

namespace FlsunT1.Klippy

open Library

variable {V : Type} [DecidableEq V]

/-! ## Objects and their status -/

/-- What `get_status` returns. -/
abbrev ObjectStatus (V : Type) := Dict String (Option V)

/-- The status of some objects: a query, a reply or a delta. -/
abbrev StatusMap (V : Type) := Dict String (ObjectStatus V)

/-- The objects of a request, each with its items or, for all of them, `none`. -/
abbrev Subscription := Dict String (Option (List String))

/-- `res.get(ri)` -/
def itemOf (res : ObjectStatus V) (ri : String) : Option V := (res.get ri).join

/-- The value of an item of an object. -/
def valueOf (view : StatusMap V) (obj ri : String) : Option V := (view.get₂ obj ri).join

/-! ## The state -/

/-- A request whose greenlet waits for `complete`. -/
structure StatusRequest where
  cconn : Nat
  isSubscribe : Bool
  objects : Subscription

/-- A request that has been answered; its greenlet is to run again. -/
structure AnsweredRequest (V : Type) extends StatusRequest where
  reply : StatusMap V

/-- An entry of `clients`, with the reply to its request and the deltas sent since. -/
structure StatusClient (V : Type) where
  subscription : Subscription
  reply : StatusMap V
  deltas : List (StatusMap V)

/-- `class QueryStatusHelper`, with the status of the objects, the clients that have
closed and the greenlets to run again. -/
structure QueryStatusHelper (V : Type) where
  status : String → ObjectStatus V
  closed : List Nat
  clients : Dict Nat (StatusClient V)
  pendingQueries : List StatusRequest
  queryTimer : Bool
  lastQuery : StatusMap V
  answered : List (AnsweredRequest V)

/-- The events of the reactor and of the objects. -/
inductive StatusEvent (V : Type)
  /-- `_handle_query`, up to `complete.wait()` -/
  | request (r : StatusRequest)
  /-- `_do_query` -/
  | doQuery
  /-- the rest of `_handle_query`, for one of the requests answered -/
  | resume (i : Nat)
  | changeStatus (obj : String) (res : ObjectStatus V)
  | close (cconn : Nat)

/-! ## One pass of `_do_query` -/

/-- `query.get(obj_name)`, or else the status of the object, which is put there. -/
def lookupStatus (status : String → ObjectStatus V) (query : StatusMap V) (obj : String) :
    ObjectStatus V × StatusMap V :=
  match query.get obj with
  | some res => (res, query)
  | none => (status obj, query.set obj (status obj))

/-- `cres`: the items asked for, or those that are not as they were. -/
def changedItems (isQuery : Bool) (res lres : ObjectStatus V) (items : List String) :
    ObjectStatus V :=
  Dict.empty.setAll <|
    (items.filter fun ri => isQuery || itemOf res ri ≠ itemOf lres ri).map fun ri =>
      (ri, itemOf res ri)

/-- The items of an object once all of them are known. -/
def resolveItems (res : ObjectStatus V) : Option (List String) → Option (List String)
  | some items => some items
  | none => if res.keys = [] then none else some res.keys

/-- One object of a subscription: what the subscription has for it afterwards, and its
part of `cquery`. -/
def queryObject (status : String → ObjectStatus V) (lastQuery : StatusMap V) (isQuery : Bool)
    (query : StatusMap V) (obj : String) (reqItems : Option (List String)) :
    StatusMap V × Option (Option (List String) × Option (ObjectStatus V)) :=
  let (res, query) := lookupStatus status query obj
  let cres := changedItems isQuery res ((lastQuery.get obj).getD .empty) (reqItems.getD res.keys)
  (query, some (resolveItems res reqItems,
    if cres.items ≠ [] ∨ isQuery then some cres else none))

/-- The loop over a subscription: `query`, the subscription and `cquery`. -/
def querySubscription (status : String → ObjectStatus V) (lastQuery : StatusMap V)
    (isQuery : Bool) (query : StatusMap V) (subscription : Subscription) :
    StatusMap V × Subscription × StatusMap V :=
  let (query, objects) := subscription.mapAccum (queryObject status lastQuery isQuery) query
  (query, objects.mapVals Prod.fst, objects.filterMapVals Prod.snd)

/-- The pending queries of a pass. -/
def answerQueries (status : String → ObjectStatus V) (lastQuery : StatusMap V) :
    StatusMap V → List StatusRequest → StatusMap V × List (AnsweredRequest V)
  | query, [] => (query, [])
  | query, r :: rs =>
      let (query, objects, cquery) := querySubscription status lastQuery true query r.objects
      let (query, answered) := answerQueries status lastQuery query rs
      (query, { r with objects := objects, reply := cquery } :: answered)

/-- A client of the table: a closed one is removed, another is sent what changed. -/
def queryClient (status : String → ObjectStatus V) (lastQuery : StatusMap V)
    (closed : List Nat) (query : StatusMap V) (cconn : Nat) (client : StatusClient V) :
    StatusMap V × Option (StatusClient V) :=
  if cconn ∈ closed then (query, none)
  else
    let (query, subscription, cquery) :=
      querySubscription status lastQuery false query client.subscription
    (query, some { client with
      subscription := subscription
      deltas := if cquery.items = [] then client.deltas else client.deltas ++ [cquery] })

namespace QueryStatusHelper

/-- `_do_query` -/
def doQuery (s : QueryStatusHelper V) : QueryStatusHelper V :=
  let (query, answered) := answerQueries s.status s.lastQuery .empty s.pendingQueries
  let (query, clients) := s.clients.mapAccum (queryClient s.status s.lastQuery s.closed) query
  { s with
    clients := clients
    pendingQueries := []
    -- the timer is unregistered if there are no longer any subscriptions
    queryTimer := query.items ≠ []
    lastQuery := query
    answered := s.answered ++ answered }

/-! ## Requests -/

/-- `_handle_query`, up to `complete.wait()`. -/
def handleQuery (r : StatusRequest) (s : QueryStatusHelper V) : QueryStatusHelper V :=
  { s with
    clients := if r.isSubscribe then s.clients.erase r.cconn else s.clients
    pendingQueries := s.pendingQueries ++ [r]
    queryTimer := true }

/-- The rest of `_handle_query`. -/
def resume (a : AnsweredRequest V) (s : QueryStatusHelper V) : QueryStatusHelper V :=
  if a.isSubscribe then
    let client : StatusClient V := { subscription := a.objects, reply := a.reply, deltas := [] }
    { s with clients := s.clients.set a.cconn client }
  else s

/-- One event. -/
def step (s : QueryStatusHelper V) : StatusEvent V → Option (QueryStatusHelper V)
  | .request r => some (s.handleQuery r)
  | .doQuery => if s.queryTimer then some s.doQuery else none
  | .resume i => s.answered[i]?.map fun a => resume a { s with answered := s.answered.eraseIdx i }
  | .changeStatus obj res =>
      some { s with status := fun obj' => if obj' = obj then res else s.status obj' }
  | .close cconn => some { s with closed := cconn :: s.closed }

/-- The helper before any request. -/
def init (status : String → ObjectStatus V) : QueryStatusHelper V where
  status := status
  closed := []
  clients := .empty
  pendingQueries := []
  queryTimer := false
  lastQuery := .empty
  answered := []

end QueryStatusHelper

/-! ## What a pass looks up -/

/-- What `query` has of an object is its status. -/
def Consistent (status : String → ObjectStatus V) (query : StatusMap V) : Prop :=
  ∀ obj res, query.get obj = some res → res = status obj

omit [DecidableEq V] in
theorem lookupStatus_eq {status : String → ObjectStatus V} {query : StatusMap V}
    (h : Consistent status query) (obj : String) :
    (lookupStatus status query obj).1 = status obj ∧
      Consistent status (lookupStatus status query obj).2 ∧
      ∀ x, (lookupStatus status query obj).2.get x =
        if x = obj then some (status obj) else query.get x := by
  simp only [lookupStatus]
  cases hget : query.get obj with
  | some res =>
    refine ⟨h obj res hget, h, fun x => ?_⟩
    show query.get x = if x = obj then some (status obj) else query.get x
    split
    · next heq => rw [heq, ← h obj res hget]; exact hget
    · rfl
  | none =>
    refine ⟨rfl, ?_, fun x => Dict.get_set _ _ _ _⟩
    intro x res hres
    rw [Dict.get_set] at hres
    split at hres
    · next heq => rw [heq]; exact (Option.some.inj hres).symm
    · exact h x res hres

/-- The query after a loop over objects: their status, and what it had before. -/
structure Looked (status : String → ObjectStatus V) (objs : String → Prop)
    (query query' : StatusMap V) : Prop where
  consistent : Consistent status query'
  looked : ∀ x, objs x → query'.get x = some (status x)
  kept : ∀ x, ¬ objs x → query'.get x = query.get x

namespace Looked

variable {status : String → ObjectStatus V} {objs objs' : String → Prop}
  {query query' query'' : StatusMap V}

omit [DecidableEq V]

theorem refl (h : Consistent status query) : Looked status (fun _ => False) query query :=
  ⟨h, fun _ hx => hx.elim, fun _ _ => rfl⟩

theorem trans (h : Looked status objs query query') (h' : Looked status objs' query' query'') :
    Looked status (fun x => objs x ∨ objs' x) query query'' := by
  refine ⟨h'.consistent, fun x hx => ?_, fun x hx => ?_⟩
  · by_cases hx' : objs' x
    · exact h'.looked x hx'
    · rw [h'.kept x hx']
      exact h.looked x (hx.resolve_right hx')
  · rw [h'.kept x fun hx' => hx (Or.inr hx')]
    exact h.kept x fun hx' => hx (Or.inl hx')

theorem congr (h : Looked status objs query query') (hobjs : ∀ x, objs x ↔ objs' x) :
    Looked status objs' query query' :=
  ⟨h.consistent, fun x hx => h.looked x ((hobjs x).mpr hx),
    fun x hx => h.kept x fun hx' => hx ((hobjs x).mp hx')⟩

theorem foldl {α : Type} {f : StatusMap V → α → StatusMap V} {g : α → String → Prop}
    (hf : ∀ query a, Consistent status query → Looked status (g a) query (f query a))
    (items : List α) (h : Consistent status query) :
    Looked status (fun x => ∃ a ∈ items, g a x) query (items.foldl f query) := by
  induction items generalizing query with
  | nil => exact (refl h).congr fun x => by simp
  | cons a items ih =>
    have hfirst := hf query a h
    exact (hfirst.trans (ih hfirst.consistent)).congr fun x => by simp

end Looked

section Pass

variable {status : String → ObjectStatus V} {query : StatusMap V} (lastQuery : StatusMap V)
  (isQuery : Bool)

/-- The part of `cquery` that an object has. -/
def objectChanges (status : String → ObjectStatus V) (lastQuery : StatusMap V) (isQuery : Bool)
    (obj : String) (reqItems : Option (List String)) : ObjectStatus V :=
  changedItems isQuery (status obj) ((lastQuery.get obj).getD .empty)
    (reqItems.getD (status obj).keys)

theorem queryObject_eq (h : Consistent status query) (obj : String)
    (reqItems : Option (List String)) :
    Looked status (· = obj) query (queryObject status lastQuery isQuery query obj reqItems).1 ∧
      (queryObject status lastQuery isQuery query obj reqItems).2 =
        some (resolveItems (status obj) reqItems,
          if (objectChanges status lastQuery isQuery obj reqItems).items ≠ [] ∨ isQuery then
            some (objectChanges status lastQuery isQuery obj reqItems)
          else none) := by
  obtain ⟨hres, hcons, hget⟩ := lookupStatus_eq h obj
  refine ⟨⟨hcons, fun x hx => ?_, fun x hx => ?_⟩, ?_⟩
  · rw [hx]
    exact (hget obj).trans (if_pos rfl)
  · exact (hget x).trans (if_neg hx)
  · rw [queryObject, objectChanges, ← hres]

/-- The loop over a subscription. -/
theorem querySubscription_spec (h : Consistent status query) (subscription : Subscription) :
    Looked status (· ∈ subscription.keys) query
        (querySubscription status lastQuery isQuery query subscription).1 ∧
      (∀ obj, (querySubscription status lastQuery isQuery query subscription).2.1.get obj =
        (subscription.get obj).map (resolveItems (status obj))) ∧
      ∀ obj ri, (querySubscription status lastQuery isQuery query subscription).2.2.get₂ obj ri =
        (subscription.get obj).bind fun reqItems =>
          (objectChanges status lastQuery isQuery obj reqItems).get ri := by
  obtain ⟨-, hget⟩ := Dict.mapAccum_spec (P := Consistent status)
    (fun query obj reqItems hq =>
      ⟨(queryObject_eq lastQuery isQuery hq obj reqItems).1.consistent,
        (queryObject_eq lastQuery isQuery hq obj reqItems).2⟩) h subscription
  refine ⟨?_, fun obj => ?_, fun obj ri => ?_⟩
  · have hloop := Looked.foldl (g := fun kv x => x = kv.1)
      (fun query (kv : String × Option (List String)) hq =>
        (queryObject_eq lastQuery isQuery hq kv.1 kv.2).1)
      subscription.items h
    rw [← Dict.mapAccum_fst] at hloop
    refine hloop.congr fun x => ?_
    rw [Dict.keys, List.mem_map]
    exact exists_congr fun kv => and_congr_right fun _ => eq_comm
  · rw [querySubscription, Dict.get_mapVals, hget]
    cases subscription.get obj <;> rfl
  · rw [querySubscription, Dict.get₂, Dict.get_filterMapVals, hget]
    cases subscription.get obj with
    | none => rfl
    | some reqItems =>
      simp only [Option.bind_some]
      split
      · rfl
      · next hnil =>
        have hempty : (objectChanges status lastQuery isQuery obj reqItems).items = [] :=
          of_not_not fun hne => hnil (Or.inl hne)
        rw [Option.bind_none, Dict.get, hempty]
        rfl

theorem changedItems_get (res lres : ObjectStatus V) (items : List String) (ri : String) :
    (changedItems isQuery res lres items).get ri =
      if ri ∈ items ∧ (isQuery = true ∨ itemOf res ri ≠ itemOf lres ri) then
        some (itemOf res ri)
      else none := by
  have hlookup (l : List String) : (l.map fun ri => (ri, itemOf res ri)).lookup ri =
      if ri ∈ l then some (itemOf res ri) else none := by
    induction l with
    | nil => rfl
    | cons x l ih =>
      rw [List.map_cons, List.lookup_cons]
      by_cases hx : ri = x
      · simp [hx]
      · simp [beq_false_of_ne hx, ih, hx]
  rw [changedItems, Dict.get_setAll, Dict.get_empty, Option.or_none, ← List.map_reverse, hlookup]
  simp

end Pass

/-! ## What a client knows -/

/-- A client with the view `view` is up to date with `query`; of an object whose items
are not known yet it knows none. -/
structure Synced (query : StatusMap V) (subscription : Subscription) (view : StatusMap V) :
    Prop where
  items : ∀ obj items, subscription.get obj = some (some items) → ∀ ri ∈ items,
    valueOf view obj ri = valueOf query obj ri
  unknown : ∀ obj, subscription.get obj = some none → ∀ ri,
    valueOf view obj ri = none ∧ valueOf query obj ri = none

omit [DecidableEq V] in
theorem Synced.congr {query view view' : StatusMap V} {subscription : Subscription}
    (h : Synced query subscription view)
    (hview : ∀ obj ri, valueOf view' obj ri = valueOf view obj ri) :
    Synced query subscription view' := by
  refine ⟨fun obj items hobj ri hri => ?_, fun obj hobj ri => ?_⟩
  · rw [hview]
    exact h.items obj items hobj ri hri
  · rw [hview]
    exact h.unknown obj hobj ri

omit [DecidableEq V] in
theorem valueOf_eq_itemOf {query : StatusMap V} {obj : String} (ri : String) :
    valueOf query obj ri = itemOf ((query.get obj).getD .empty) ri := by
  rw [valueOf, Dict.get₂, itemOf]
  cases query.get obj <;> rfl

omit [DecidableEq V] in
theorem itemOf_eq_none_of_keys {res : ObjectStatus V} (h : res.keys = []) (ri : String) :
    itemOf res ri = none := by
  have hitems : res.items = [] := List.map_eq_nil_iff.mp h
  rw [itemOf, Dict.get, hitems]
  rfl

omit [DecidableEq V] in
theorem valueOf_merge (view delta : StatusMap V) (obj ri : String) :
    valueOf (view.merge delta) obj ri = ((delta.get₂ obj ri).or (view.get₂ obj ri)).join := by
  rw [valueOf, Dict.get₂_merge]

section Merge

variable {status : String → ObjectStatus V} {lastQuery query query' view : StatusMap V}
  {isQuery : Bool} {subscription : Subscription}

theorem valueOf_merge_querySubscription (h : Consistent status query) {obj : String}
    {reqItems : Option (List String)} (hobj : subscription.get obj = some reqItems) {ri : String}
    (hri : ri ∈ reqItems.getD (status obj).keys)
    (hview : isQuery = true ∨ valueOf view obj ri = valueOf lastQuery obj ri) :
    valueOf (view.merge (querySubscription status lastQuery isQuery query subscription).2.2)
      obj ri = itemOf (status obj) ri := by
  obtain ⟨-, -, hcquery⟩ := querySubscription_spec lastQuery isQuery h subscription
  rw [valueOf_merge, hcquery, hobj, Option.bind_some, objectChanges, changedItems_get]
  split
  · rfl
  · next hsame =>
    have hnot : ¬ (isQuery = true ∨
        itemOf (status obj) ri ≠ itemOf ((lastQuery.get obj).getD .empty) ri) :=
      fun hor => hsame ⟨hri, hor⟩
    obtain ⟨hfalse, heq⟩ := not_or.mp hnot
    rw [Option.none_or]
    calc valueOf view obj ri = valueOf lastQuery obj ri := hview.resolve_left hfalse
      _ = itemOf ((lastQuery.get obj).getD .empty) ri := valueOf_eq_itemOf ri
      _ = itemOf (status obj) ri := (of_not_not heq).symm

/-- The pass brings a client from what was queried last to what is queried now. -/
theorem Synced.merge (h : Consistent status query)
    (hquery' : ∀ obj ∈ subscription.keys, query'.get obj = some (status obj))
    (hview : (isQuery = true ∧ view = .empty) ∨ Synced lastQuery subscription view) :
    Synced query' (querySubscription status lastQuery isQuery query subscription).2.1
      (view.merge (querySubscription status lastQuery isQuery query subscription).2.2) := by
  obtain ⟨-, hsub, hcquery⟩ := querySubscription_spec lastQuery isQuery h subscription
  have hvalue {obj : String} {reqItems : Option (List String)}
      (hobj : subscription.get obj = some reqItems) (ri : String) :
      valueOf query' obj ri = itemOf (status obj) ri := by
    rw [valueOf_eq_itemOf, hquery' obj (Dict.mem_keys_iff.mpr ⟨_, hobj⟩)]
    rfl
  constructor
  · intro obj items hitems ri hri
    rw [hsub] at hitems
    obtain ⟨reqItems, hobj, hresolve⟩ := Option.map_eq_some_iff.mp hitems
    rw [hvalue hobj]
    cases reqItems with
    | some asked =>
      obtain rfl : asked = items := Option.some.inj hresolve
      exact valueOf_merge_querySubscription h hobj hri
        (hview.imp And.left fun hsync => hsync.items obj asked hobj ri hri)
    | none =>
      simp only [resolveItems] at hresolve
      split at hresolve
      · cases hresolve
      · obtain rfl : (status obj).keys = items := Option.some.inj hresolve
        refine valueOf_merge_querySubscription h hobj hri (hview.imp And.left fun hsync => ?_)
        obtain ⟨hv, hq⟩ := hsync.unknown obj hobj ri
        exact hv.trans hq.symm
  · intro obj hunknown ri
    rw [hsub] at hunknown
    obtain ⟨reqItems, hobj, hresolve⟩ := Option.map_eq_some_iff.mp hunknown
    cases reqItems with
    | some asked => cases hresolve
    | none =>
      simp only [resolveItems] at hresolve
      split at hresolve
      · next hkeys =>
        refine ⟨?_, (hvalue hobj ri).trans (itemOf_eq_none_of_keys hkeys ri)⟩
        rw [valueOf_merge, hcquery, hobj, Option.bind_some, objectChanges, changedItems_get,
          Option.getD_none, hkeys, if_neg (fun hmem => List.not_mem_nil hmem.1), Option.none_or]
        rcases hview with ⟨-, rfl⟩ | hsync
        · rfl
        · exact (hsync.unknown obj hobj ri).1
      · cases hresolve

end Merge

/-! ## The invariant -/

/-- What a client has of the objects, after its reply and the deltas. -/
def StatusClient.view (client : StatusClient V) : StatusMap V :=
  client.deltas.foldl Dict.merge client.reply

/-- The clients, and those that will enter the table, are up to date with the last query. -/
structure InSync (s : QueryStatusHelper V) : Prop where
  clients : ∀ cconn client, s.clients.get cconn = some client →
    Synced s.lastQuery client.subscription client.view
  answered : ∀ a ∈ s.answered, a.isSubscribe = true → Synced s.lastQuery a.objects a.reply

/-- Each subscribed item of each client in the table reads as it is. -/
def UpToDate (s : QueryStatusHelper V) : Prop :=
  ∀ cconn client, s.clients.get cconn = some client →
    ∀ obj items, client.subscription.get obj = some (some items) → ∀ ri ∈ items,
      valueOf client.view obj ri = itemOf (s.status obj) ri

namespace QueryStatusHelper

/-- Some request or some open client asks for the object. -/
def isQueried (s : QueryStatusHelper V) (obj : String) : Prop :=
  (∃ r ∈ s.pendingQueries, obj ∈ r.objects.keys) ∨
    ∃ kv ∈ s.clients.items, kv.1 ∉ s.closed ∧ obj ∈ kv.2.subscription.keys

/-- The reply to a request tells what the next pass finds: of an object that nobody asks
for, that pass finds nothing. -/
structure StillCurrent (s : QueryStatusHelper V) (a : AnsweredRequest V) : Prop where
  items : ∀ obj items, a.objects.get obj = some (some items) → ∀ ri ∈ items,
    (s.isQueried obj → valueOf a.reply obj ri = itemOf (s.status obj) ri) ∧
      (¬ s.isQueried obj → valueOf a.reply obj ri = none)
  unknown : ∀ obj, a.objects.get obj = some none → s.isQueried obj →
    ∀ ri, itemOf (s.status obj) ri = none

end QueryStatusHelper

/-- The condition on an event: a pass finds the reply of each subscription whose greenlet
has not run again still current. -/
def StatusCondition (s : QueryStatusHelper V) : StatusEvent V → Prop
  | .doQuery => ∀ a ∈ s.answered, a.isSubscribe = true → s.StillCurrent a
  | _ => True

/-! ## The whole pass -/

section DoQuery

variable {status : String → ObjectStatus V} {lastQuery query : StatusMap V}

theorem answerQueries_spec (lastQuery : StatusMap V) (h : Consistent status query)
    (rs : List StatusRequest) :
    Looked status (fun x => ∃ r ∈ rs, x ∈ r.objects.keys) query
        (answerQueries status lastQuery query rs).1 ∧
      ∀ a ∈ (answerQueries status lastQuery query rs).2, ∃ r ∈ rs, ∃ query',
        Consistent status query' ∧
          a.objects = (querySubscription status lastQuery true query' r.objects).2.1 ∧
          a.reply = (querySubscription status lastQuery true query' r.objects).2.2 := by
  induction rs generalizing query with
  | nil => exact ⟨(Looked.refl h).congr fun x => by simp, List.forall_mem_nil _⟩
  | cons r rs ih =>
    have hfirst := (querySubscription_spec lastQuery true h r.objects).1
    obtain ⟨hrest, hans⟩ := ih hfirst.consistent
    refine ⟨(hfirst.trans hrest).congr fun x => by simp, fun a ha => ?_⟩
    rcases List.mem_cons.mp ha with rfl | hmem
    · exact ⟨r, List.mem_cons_self, query, h, rfl, rfl⟩
    · obtain ⟨r', hr', hrep⟩ := hans a hmem
      exact ⟨r', List.mem_cons_of_mem _ hr', hrep⟩

/-- What a client of the table has become, if it is still there: it was sent what a lookup
of its objects gives. -/
def Refreshed (status : String → ObjectStatus V) (lastQuery : StatusMap V) (closed : List Nat)
    (cconn : Nat) (client : StatusClient V) (after : Option (StatusClient V)) : Prop :=
  ∀ client', after = some client' → cconn ∉ closed ∧ ∃ query, Consistent status query ∧
    client'.subscription =
      (querySubscription status lastQuery false query client.subscription).2.1 ∧
    ∀ obj ri, valueOf client'.view obj ri = valueOf (client.view.merge
      (querySubscription status lastQuery false query client.subscription).2.2) obj ri

theorem queryClient_spec (lastQuery : StatusMap V) (closed : List Nat)
    (h : Consistent status query) (cconn : Nat) (client : StatusClient V) :
    Looked status (fun x => cconn ∉ closed ∧ x ∈ client.subscription.keys) query
        (queryClient status lastQuery closed query cconn client).1 ∧
      Refreshed status lastQuery closed cconn client
        (queryClient status lastQuery closed query cconn client).2 := by
  rw [queryClient]
  split
  · next hclosed =>
    exact ⟨(Looked.refl h).congr fun x => by simp [hclosed], fun _ hc => nomatch hc⟩
  · next hopen =>
    have hspec := (querySubscription_spec lastQuery false h client.subscription).1
    refine ⟨hspec.congr fun x => by simp [hopen], fun client' hc => ?_⟩
    obtain rfl := Option.some.inj hc
    refine ⟨hopen, query, h, rfl, fun obj ri => ?_⟩
    simp only [StatusClient.view]
    split
    · next hnil =>
      rw [valueOf_merge, Dict.get₂, Dict.get, hnil]
      rfl
    · rw [List.foldl_append]
      rfl

/-- A pass leaves every client of the table up to date with what it queried, and that is
the status of every object asked for. -/
theorem InSync.doQuery {s : QueryStatusHelper V} (h : InSync s)
    (hc : StatusCondition s .doQuery) : InSync s.doQuery ∧ UpToDate s.doQuery := by
  have hempty : Consistent s.status (Dict.empty : StatusMap V) := fun _ _ hres => nomatch hres
  obtain ⟨hanswers, hans⟩ := answerQueries_spec s.lastQuery hempty s.pendingQueries
  have hloop := Looked.foldl (g := fun kv x => kv.1 ∉ s.closed ∧ x ∈ kv.2.subscription.keys)
    (fun query (kv : Nat × StatusClient V) hq =>
      (queryClient_spec s.lastQuery s.closed hq kv.1 kv.2).1) s.clients.items hanswers.consistent
  obtain ⟨-, hclients⟩ := Dict.mapAccum_rule (P := Consistent s.status)
    (R := Refreshed s.status s.lastQuery s.closed) (fun query cconn client hq =>
      ⟨(queryClient_spec s.lastQuery s.closed hq cconn client).1.consistent,
        (queryClient_spec s.lastQuery s.closed hq cconn client).2⟩) hanswers.consistent s.clients
  rw [← Dict.mapAccum_fst] at hloop
  have hlook : Looked s.status s.isQueried .empty s.doQuery.lastQuery := hanswers.trans hloop
  have hquery {obj : String} (hobj : s.isQueried obj) :
      s.doQuery.lastQuery.get obj = some (s.status obj) := hlook.looked obj hobj
  have hvalue {obj : String} (hobj : s.isQueried obj) (ri : String) :
      valueOf s.doQuery.lastQuery obj ri = itemOf (s.status obj) ri := by
    rw [valueOf_eq_itemOf, hquery hobj]
    rfl
  have hnone {obj : String} (hobj : ¬ s.isQueried obj) (ri : String) :
      valueOf s.doQuery.lastQuery obj ri = none := by
    rw [valueOf_eq_itemOf, hlook.kept obj hobj]
    rfl
  -- the clients of the table, each with the client it was before
  have hafter : ∀ cconn client', s.doQuery.clients.get cconn = some client' →
      Synced s.doQuery.lastQuery client'.subscription client'.view ∧
        ∀ obj ∈ client'.subscription.keys, s.isQueried obj := by
    intro cconn client' hget
    obtain ⟨hmiss, hfound⟩ := hclients cconn
    cases hbefore : s.clients.get cconn with
    | none => exact nomatch (hmiss hbefore).symm.trans hget
    | some client =>
      obtain ⟨hopen, query', hq', hsub, hview⟩ := hfound client hbefore client' hget
      have hasked : ∀ obj ∈ client.subscription.keys, s.isQueried obj := fun obj hobj =>
        Or.inr ⟨(cconn, client), Dict.get_eq_some_iff.mp hbefore, hopen, hobj⟩
      have hmerge : Synced s.doQuery.lastQuery _ _ := Synced.merge hq'
        (fun obj hobj => hquery (hasked obj hobj))
        (Or.inr (h.clients cconn client hbefore) : (false = true ∧ client.view = .empty) ∨ _)
      rw [← hsub] at hmerge
      refine ⟨hmerge.congr hview, fun obj hobj => hasked obj ?_⟩
      obtain ⟨items', hget'⟩ := Dict.mem_keys_iff.mp hobj
      rw [hsub, (querySubscription_spec s.lastQuery false hq' client.subscription).2.1] at hget'
      obtain ⟨items, hitems, -⟩ := Option.map_eq_some_iff.mp hget'
      exact Dict.mem_keys_iff.mpr ⟨items, hitems⟩
  refine ⟨⟨fun cconn client' hget => (hafter cconn client' hget).1, fun a ha hsubscribe => ?_⟩,
    fun cconn client' hget obj items hobj ri hri => ?_⟩
  · rcases List.mem_append.mp ha with hold | hnew
    · have hstill := hc a hold hsubscribe
      have hsync := h.answered a hold hsubscribe
      refine ⟨fun obj items hobj ri hri => ?_, fun obj hobj ri => ⟨(hsync.unknown obj hobj ri).1, ?_⟩⟩
      · obtain ⟨hyes, hno⟩ := hstill.items obj items hobj ri hri
        by_cases hq : s.isQueried obj
        · rw [hvalue hq]
          exact hyes hq
        · rw [hnone hq]
          exact hno hq
      · by_cases hq : s.isQueried obj
        · rw [hvalue hq]
          exact hstill.unknown obj hobj hq ri
        · exact hnone hq ri
    · obtain ⟨r, hr, query', hq', hobjects, hreply⟩ := hans a hnew
      have hasked : ∀ obj ∈ r.objects.keys, s.isQueried obj := fun obj hobj =>
        Or.inl ⟨r, hr, hobj⟩
      have hmerge : Synced s.doQuery.lastQuery _ _ := Synced.merge hq'
        (fun obj hobj => hquery (hasked obj hobj))
        (Or.inl ⟨rfl, rfl⟩ : true = true ∧ (Dict.empty : StatusMap V) = .empty ∨
          Synced s.lastQuery r.objects .empty)
      rw [hobjects, hreply]
      refine hmerge.congr fun obj ri => ?_
      rw [valueOf_merge, valueOf]
      exact congrArg Option.join (Option.or_none).symm
  · obtain ⟨hsync, hasked⟩ := hafter cconn client' hget
    have hkey : obj ∈ client'.subscription.keys := Dict.mem_keys_iff.mpr ⟨some items, hobj⟩
    rw [hsync.items obj items hobj ri hri]
    exact hvalue (hasked obj hkey) ri

end DoQuery

/-! ## Every run -/

/-- One event that meets its condition. -/
theorem InSync.step {s t : QueryStatusHelper V} (h : InSync s) {e : StatusEvent V}
    (hc : StatusCondition s e) (hstep : s.step e = some t) : InSync t := by
  cases e with
  | request r =>
    obtain rfl := Option.some.inj hstep
    refine ⟨fun cconn client hget => h.clients cconn client ?_, h.answered⟩
    simp only [QueryStatusHelper.handleQuery] at hget
    split at hget
    · rw [Dict.get_erase] at hget
      split at hget
      · cases hget
      · exact hget
    · exact hget
  | doQuery =>
    simp only [QueryStatusHelper.step] at hstep
    split at hstep
    · exact Option.some.inj hstep ▸ (h.doQuery hc).1
    · cases hstep
  | resume i =>
    obtain ⟨a, ha, rfl⟩ := Option.map_eq_some_iff.mp hstep
    have hanswered : ∀ b ∈ s.answered.eraseIdx i, b.isSubscribe = true →
        Synced s.lastQuery b.objects b.reply :=
      fun b hb => h.answered b (List.mem_of_mem_eraseIdx hb)
    simp only [QueryStatusHelper.resume]
    split
    · next hsubscribe =>
      refine ⟨fun cconn client hget => ?_, hanswered⟩
      rw [Dict.get_set] at hget
      split at hget
      · obtain rfl := Option.some.inj hget
        exact h.answered a (List.mem_of_getElem? ha) hsubscribe
      · exact h.clients cconn client hget
    · exact ⟨h.clients, hanswered⟩
  | changeStatus obj res =>
    obtain rfl := Option.some.inj hstep
    exact ⟨h.clients, h.answered⟩
  | close cconn =>
    obtain rfl := Option.some.inj hstep
    exact ⟨h.clients, h.answered⟩

/-- In every run whose events meet their condition, every client in the table is up to
date right after each pass. -/
theorem upToDate_of_condition {status : String → ObjectStatus V} {es : List (StatusEvent V)}
    {s t : QueryStatusHelper V}
    (h : Run (fun s e t => QueryStatusHelper.step s e = some t ∧ StatusCondition s e)
      (.init status) es s)
    (hpass : s.step .doQuery = some t) (hc : StatusCondition s .doQuery) : UpToDate t := by
  have hinit : InSync (.init status : QueryStatusHelper V) :=
    ⟨(fun _ _ hget => nomatch hget), List.forall_mem_nil _⟩
  have hsync : InSync s :=
    Run.invariant (P := InSync) h hinit fun s e t hs hstep => hs.step hstep.2 hstep.1
  simp only [QueryStatusHelper.step] at hpass
  split at hpass
  · exact Option.some.inj hpass ▸ (hsync.doQuery hc).2
  · cases hpass

/-! ## A change that is lost -/

/-- The status of an object with the position `z`. -/
def positionStatus (z : Nat) : ObjectStatus Nat := Dict.empty.set "z" (some z)

/-- A toolhead at 1, and no other object. -/
def toolheadStatus (obj : String) : ObjectStatus Nat :=
  if obj = "toolhead" then positionStatus 1 else .empty

/-- A client subscribes to the position. -/
def subscribePosition (cconn : Nat) : StatusEvent Nat :=
  .request { cconn := cconn, isSubscribe := true
             objects := Dict.empty.set "toolhead" (some ["z"]) }

/-- The toolhead moves before the greenlet of the second client runs again, and the first
client has a pass in between. -/
def lostChange : List (StatusEvent Nat) :=
  [subscribePosition 1, .doQuery, .resume 0, subscribePosition 2, .doQuery,
    .changeStatus "toolhead" (positionStatus 2), .doQuery, .resume 0]

theorem upToDate_fails_of_pass : ∃ s t : QueryStatusHelper Nat,
    Run (fun s e t => QueryStatusHelper.step s e = some t) (.init toolheadStatus) lostChange s ∧
      s.step .doQuery = some t ∧ ¬ UpToDate t := by
  obtain ⟨s, hrun, hs⟩ : ∃ s : QueryStatusHelper Nat,
      Run (fun s e t => QueryStatusHelper.step s e = some t) (.init toolheadStatus) lostChange s ∧
      (s.queryTimer && (s.doQuery.clients.get 2).any fun client =>
        client.subscription.get "toolhead" == some (some ["z"]) &&
          valueOf client.view "toolhead" "z" == some 1 &&
          itemOf (s.doQuery.status "toolhead") "z" == some 2) = true :=
    Run.exists_of_any (by decide)
  obtain ⟨htimer, hclient⟩ := (Bool.and_eq_true _ _).mp hs
  obtain ⟨client, hget, hvalues⟩ := (Option.any_eq_true _ _).mp hclient
  simp only [Bool.and_eq_true, beq_iff_eq] at hvalues
  obtain ⟨⟨hsub, hview⟩, hitem⟩ := hvalues
  refine ⟨s, s.doQuery, hrun, if_pos htimer, fun hup => ?_⟩
  have heq := hup 2 client hget "toolhead" ["z"] hsub "z" List.mem_cons_self
  rw [hview, hitem] at heq
  cases heq

/-- The toolhead moves once the client is in the table. -/
def seenChange : List (StatusEvent Nat) :=
  [subscribePosition 1, .doQuery, .resume 0, .changeStatus "toolhead" (positionStatus 2)]

/-- At a pass, every request that has been answered has been resumed too. -/
def noneAnswered (s : QueryStatusHelper V) : StatusEvent V → Bool
  | .doQuery => s.answered.isEmpty
  | _ => true

omit [DecidableEq V] in
theorem statusCondition_of_noneAnswered {s : QueryStatusHelper V} {e : StatusEvent V}
    (h : noneAnswered s e = true) : StatusCondition s e := by
  cases e with
  | doQuery =>
    have hnil : s.answered = [] := List.isEmpty_iff.mp h
    show ∀ a ∈ s.answered, a.isSubscribe = true → s.StillCurrent a
    rw [hnil]
    exact List.forall_mem_nil _
  | _ => trivial

theorem upToDate_of_condition_seen : ∃ t : QueryStatusHelper Nat,
    ((t.clients.get 1).map fun client => valueOf client.view "toolhead" "z") = some (some 2) ∧
      UpToDate t := by
  obtain ⟨s, hrun, hs⟩ : ∃ s : QueryStatusHelper Nat,
      Run (fun s e t => (if noneAnswered s e = true then s.step e else none) = some t)
        (.init toolheadStatus) seenChange s ∧
      (s.queryTimer && noneAnswered s .doQuery &&
        (s.doQuery.clients.get 1).map (fun client => valueOf client.view "toolhead" "z") ==
          some (some 2)) = true :=
    Run.exists_of_any (by decide)
  simp only [Bool.and_eq_true, beq_iff_eq] at hs
  obtain ⟨⟨htimer, hnone⟩, hview⟩ := hs
  refine ⟨s.doQuery, hview, upToDate_of_condition (hrun.mono fun s e t hstep => ?_)
    (if_pos htimer) (statusCondition_of_noneAnswered hnone)⟩
  split at hstep
  · next hc => exact ⟨hstep, statusCondition_of_noneAnswered hc⟩
  · cases hstep

end FlsunT1.Klippy
