/-
  Moonraker/AuthorizationRestart.lean --- the users survive a restart.

  The invariant compares the users in memory with the database as the pending writes leave it.
  The names of users must be keys of records: a dot in a name makes a path of it.
-/
import FlsunT1.Moonraker.AuthorizationStore

set_option autoImplicit false

namespace FlsunT1.Moonraker

open Library

variable {F : Type} {codec : RecordCodec F} {lmdb : Lmdb} {env : AuthEnv F}

/-! ## The namespace after `__init__` -/

theorem syncNamespace_spec {value : Table String (Value F)} {db db' : Database}
    (h : db.syncNamespace codec lmdb userDb value = some db') :
    Readable codec lmdb db' ∧ ∀ name, stored codec db' name = value.get name := by
  rw [Database.syncNamespace] at h
  obtain ⟨records, hrecords, h⟩ := Option.bind_eq_some_iff.mp h
  have hdb : db' = db.set userDb records := by
    split at h
    · cases h
    · exact (Option.some.inj h).symm
  have hget (name : String) (bytes : List UInt8) (hbytes : records.get name = some bytes) :
      ∃ v, value.get name = some v ∧ encodeValue codec v = some bytes ∧
        lmdb.takes name bytes = true := by
    rw [Table.get_mapM hrecords] at hbytes
    obtain ⟨v, hv, hbytes⟩ := Option.bind_eq_some_iff.mp hbytes
    obtain ⟨bytes', hencode, hbytes⟩ := Option.bind_eq_some_iff.mp hbytes
    split at hbytes
    · rename_i htakes
      obtain rfl := Option.some.inj hbytes
      exact ⟨v, hv, hencode, htakes⟩
    · cases hbytes
  refine ⟨⟨records, ?_, fun name bytes hbytes => ?_⟩, fun name => ?_⟩
  · rw [hdb, Table.get_set, if_pos rfl]
  · obtain ⟨v, -, hencode, htakes⟩ := hget name bytes hbytes
    exact ⟨htakes, v, hencode⟩
  · rw [stored, hdb, Table.get₂, Table.get_set, if_pos rfl, Option.bind_some]
    cases hbytes : records.get name with
    | none =>
      rw [Option.bind_none]
      cases hv : value.get name with
      | none => rfl
      | some v =>
        obtain ⟨bytes, hbytes'⟩ := Table.exists_of_mapM hrecords hv
        rw [Table.get_mapM hrecords, hv, Option.bind_some, hbytes'] at hbytes
        cases hbytes
    | some bytes =>
      obtain ⟨v, hv, hencode, -⟩ := hget name bytes hbytes
      rw [Option.bind_some, decodeValue_encodeValue hencode, hv]

/-- The state that `__init__` leaves for the users of a database. -/
def initState (users : Table String (UserInfo F)) (db : Database) : AuthState F :=
  { db := db, objects := users.filterMap fun _ info => some [info]
    users := users.filterMap fun _ _ => some 0, pending := [] }

theorem start_eq_some_iff {apiKey : String} {createdOn : F} {db : Database} {s : AuthState F} :
    AuthState.start codec lmdb env apiKey createdOn db = some s ↔
      ∃ db₁ d users db₂, db.openNamespace lmdb userDb = some db₁ ∧
        db₁.asDict codec userDb = some d ∧ initUsers env apiKey createdOn d = some users ∧
        db₁.syncNamespace codec lmdb userDb (users.filterMap fun _ info => some (.dict info)) =
          some db₂ ∧ s = initState users db₂ := by
  rw [AuthState.start]
  simp only [Option.bind_eq_bind, Option.bind_eq_some_iff, Option.pure_def, Option.some.injEq]
  constructor
  · rintro ⟨db₁, hopen, d, hd, users, husers, db₂, hsync, rfl⟩
    exact ⟨db₁, d, users, db₂, hopen, hd, husers, hsync, rfl⟩
  · rintro ⟨db₁, d, users, db₂, hopen, hd, husers, hsync, rfl⟩
    exact ⟨db₁, hopen, d, hd, users, husers, db₂, hsync, rfl⟩

theorem user_initState (users : Table String (UserInfo F)) (db : Database) (name : String) :
    (initState users db).user name = users.get name := by
  rw [AuthState.user, initState, Table.get_filterMap]
  cases hinfo : users.get name with
  | none => rfl
  | some info =>
    rw [Option.bind_some, Option.bind_some, objectAt, Table.get_filterMap, hinfo]
    rfl

/-! ## The invariant -/

/-- What holds between the requests: the users are valid and have plain names, and the writes
that are pending bring what is stored to what is in memory. -/
structure StoreInv (codec : RecordCodec F) (lmdb : Lmdb) (env : AuthEnv F) (s : AuthState F) :
    Prop where
  readable : Readable codec lmdb s.db
  writes : ∀ w ∈ s.pending, PlainName w.username
  names : ∀ name object, s.users.get name = some object → PlainName name
  live : ∀ name object, s.users.get name = some object →
    ∃ info, objectAt s.objects name object = some info ∧ ValidInfo env name info
  api : s.users.get apiUser ≠ none
  settles : ∀ name, settled s.objects name s.pending (stored codec s.db name) =
    (s.user name).map .dict

theorem StoreInv.valid {s : AuthState F} (hs : StoreInv codec lmdb env s) {name : String}
    {info : UserInfo F} (hinfo : s.user name = some info) : ValidInfo env name info := by
  obtain ⟨object, hobject, hinfo⟩ := Option.bind_eq_some_iff.mp hinfo
  obtain ⟨info', hinfo', hvalid⟩ := hs.live name object hobject
  rw [hinfo] at hinfo'
  rw [Option.some.inj hinfo']
  exact hvalid

/-- The users that are loaded are those that are stored. -/
theorem storeInv_start {apiKey : String} {createdOn : F} {db : Database} {s : AuthState F}
    (h : AuthState.start codec lmdb env apiKey createdOn db = some s)
    (hplain : ∀ name, s.user name ≠ none → PlainName name) : StoreInv codec lmdb env s := by
  obtain ⟨db₁, d, users, db₂, -, -, husers, hsync, rfl⟩ := start_eq_some_iff.mp h
  obtain ⟨hreadable, hstored⟩ := syncNamespace_spec hsync
  obtain ⟨hvalid, hapi⟩ := initUsers_valid husers
  have hget (name : String) (object : ℕ)
      (hobject : (initState users db₂).users.get name = some object) :
      object = 0 ∧ ∃ info, users.get name = some info := by
    rw [initState, Table.get_filterMap] at hobject
    obtain ⟨info, hinfo, hzero⟩ := Option.bind_eq_some_iff.mp hobject
    exact ⟨(Option.some.inj hzero).symm, info, hinfo⟩
  refine ⟨hreadable, (fun _ hw => nomatch hw), fun name object hobject => ?_,
    fun name object hobject => ?_, fun hnone => ?_, fun name => ?_⟩
  · obtain ⟨-, info, hinfo⟩ := hget name object hobject
    apply hplain name
    rw [user_initState, hinfo]
    exact Option.some_ne_none info
  · obtain ⟨rfl, info, hinfo⟩ := hget name object hobject
    refine ⟨info, ?_, hvalid name info hinfo⟩
    rw [objectAt, initState, Table.get_filterMap, hinfo]
    rfl
  · obtain ⟨info, hinfo⟩ := Option.ne_none_iff_exists'.mp hapi
    rw [initState, Table.get_filterMap, hinfo] at hnone
    cases hnone
  · rw [user_initState]
    show stored codec db₂ name = _
    rw [hstored, Table.get_filterMap]
    cases users.get name with
    | none => rfl
    | some info => rfl

/-- A change of one user with a write of what it is then. -/
theorem StoreInv.of_sync {s t : AuthState F} (hs : StoreInv codec lmdb env s) (username : String)
    {w : AuthWrite} (hw : w.username = username) (hplain : PlainName username) (hdb : t.db = s.db)
    (hpending : t.pending = s.pending ++ [w])
    (hothers : ∀ name, name ≠ username →
      t.objects.get name = s.objects.get name ∧ t.users.get name = s.users.get name)
    (hwritten : ∀ old, written t.objects username w old = (t.user username).map .dict)
    (hlive : ∀ object, t.users.get username = some object →
      ∃ info, objectAt t.objects username object = some info ∧ ValidInfo env username info)
    (hapi : username = apiUser → t.users.get username ≠ none) : StoreInv codec lmdb env t := by
  refine ⟨hdb ▸ hs.readable, fun w' hw' => ?_, fun name object hobject => ?_,
    fun name object hobject => ?_, fun hnone => ?_, fun name => ?_⟩
  · rw [hpending, List.mem_append, List.mem_singleton] at hw'
    obtain hw' | rfl := hw'
    · exact hs.writes w' hw'
    · exact hw ▸ hplain
  · by_cases hname : name = username
    · exact hname ▸ hplain
    · rw [(hothers name hname).2] at hobject
      exact hs.names name object hobject
  · by_cases hname : name = username
    · subst hname
      exact hlive object hobject
    · obtain ⟨hobjects, husers⟩ := hothers name hname
      rw [husers] at hobject
      rw [objectAt, hobjects]
      exact hs.live name object hobject
  · by_cases hname : apiUser = username
    · exact hapi hname.symm (hname ▸ hnone)
    · rw [(hothers apiUser hname).2] at hnone
      exact hs.api hnone
  · rw [hpending, settled_concat, hdb]
    by_cases hname : name = username
    · rw [hname]
      exact hwritten _
    · obtain ⟨hobjects, husers⟩ := hothers name hname
      rw [written_of_ne _ (hw.symm ▸ hname), settled_congr hobjects, hs.settles name,
        AuthState.user, AuthState.user, husers]
      unfold objectAt
      rw [hobjects]

theorem written_user {s : AuthState F} {username : String} {object : ℕ} {info : UserInfo F}
    (hobject : s.users.get username = some object)
    (hinfo : objectAt s.objects username object = some info) (old : Option (Value F)) :
    written s.objects username (.insert username object) old = (s.user username).map .dict := by
  rw [written_insert, if_pos rfl, AuthState.user, hobject, Option.bind_some, hinfo]
  rfl

theorem StoreInv.changeUser {s : AuthState F} (hs : StoreInv codec lmdb env s) {username : String}
    {f : UserInfo F → UserInfo F}
    (hf : ∀ info, ValidInfo env username info → ValidInfo env username (f info)) :
    StoreInv codec lmdb env (s.changeUser username f) := by
  rw [AuthState.changeUser]
  split
  · exact hs
  · rename_i object hobject
    obtain ⟨info, hinfo, hvalid⟩ := hs.live username object hobject
    have hchanged : objectAt (s.objects.set username
        (((s.objects.get username).getD []).modify object f)) username object = some (f info) := by
      rw [objectAt] at hinfo ⊢
      rw [Table.get_set, if_pos rfl, Option.getD_some, List.getElem?_modify_eq, hinfo]
      rfl
    refine hs.of_sync username (w := .insert username object) rfl (hs.names username object hobject) rfl rfl
      (fun name hname => ⟨(Table.get_set ..).trans (if_neg hname), rfl⟩)
      (written_user hobject hchanged) (fun object' hobject' => ?_)
      fun _ hnone => absurd (hobject.symm.trans hnone) (Option.some_ne_none _)
    obtain rfl := Option.some.inj (hobject.symm.trans hobject')
    exact ⟨f info, hchanged, hf info hvalid⟩

theorem StoreInv.addUser {s : AuthState F} (hs : StoreInv codec lmdb env s) {username : String}
    {info : UserInfo F} (hplain : PlainName username) (hvalid : ValidInfo env username info) :
    StoreInv codec lmdb env (s.addUser username info) := by
  have hadded : objectAt (s.addUser username info).objects username
      ((s.objects.get username).getD []).length = some info := by
    rw [objectAt, AuthState.addUser, Table.get_set, if_pos rfl, Option.getD_some,
      List.getElem?_concat_length]
  have hobject : (s.addUser username info).users.get username =
      some ((s.objects.get username).getD []).length := (Table.get_set ..).trans (if_pos rfl)
  refine hs.of_sync username (w := .insert username _) rfl hplain rfl rfl
    (fun name hname => ⟨(Table.get_set ..).trans (if_neg hname),
      (Table.get_set ..).trans (if_neg hname)⟩)
    (written_user hobject hadded) (fun object hobject' => ?_)
    fun _ hnone => absurd (hobject.symm.trans hnone) (Option.some_ne_none _)
  obtain rfl := Option.some.inj (hobject.symm.trans hobject')
  exact ⟨info, hadded, hvalid⟩

theorem StoreInv.deleteJwtUser {s : AuthState F} (hs : StoreInv codec lmdb env s)
    (username : String) (current : Option (UserInfo F)) :
    StoreInv codec lmdb env (s.deleteJwtUser username current) := by
  rw [AuthState.deleteJwtUser]
  split
  · exact hs
  · split
    · exact hs
    · rename_i hreserved
      split
      · exact hs
      · rename_i object hobject
        have herased : (s.users.erase username).get username = none :=
          (Table.get_erase ..).trans (if_pos rfl)
        refine hs.of_sync username (w := .delete username) rfl
          (hs.names username object hobject) rfl rfl
          (fun name hname => ⟨rfl, (Table.get_erase ..).trans (if_neg hname)⟩) (fun old => ?_)
          (fun object' hobject' => absurd (hobject'.symm.trans herased) (Option.some_ne_none _))
          fun hapi => ?_
        · rw [written_delete, if_pos rfl, AuthState.user, herased]
          rfl
        · exact absurd (hapi.symm ▸ List.mem_cons_self) hreserved

theorem StoreInv.write {s : AuthState F} (hs : StoreInv codec lmdb env s) {w : AuthWrite}
    {pending : List AuthWrite} (hpending : s.pending = w :: pending)
    (hw : WriteCondition codec lmdb s w) :
    StoreInv codec lmdb env
      { s with db := (s.runWrite codec lmdb w).2, pending := pending } := by
  have hplain : PlainName w.username := hs.writes w (hpending ▸ List.mem_cons_self)
  obtain ⟨hreadable, hstored⟩ := runWrite_spec hplain hs.readable hw
  refine ⟨hreadable, fun w' hw' => hs.writes w' (hpending ▸ List.mem_cons_of_mem w hw'), hs.names,
    hs.live, hs.api, fun name => ?_⟩
  have hsettles := hs.settles name
  rw [hpending] at hsettles
  show settled s.objects name pending (stored codec (s.runWrite codec lmdb w).2 name) = _
  rw [hstored]
  exact hsettles

/-! ## Requests -/

/-- The condition on a request or a write: a new user has a plain name, and what a write stores
is encoded and taken. -/
def StoreCondition (codec : RecordCodec F) (lmdb : Lmdb) (s : AuthState F) :
    AuthEvent env → Prop
  | .login create username _ source ldap _ =>
    s.user username = none ∧ (create = true ∧ source = "moonraker" ∨
      create = false ∧ source = "ldap" ∧ ldap = some true) → PlainName username
  | .write => ∀ w ∈ s.pending.head?, WriteCondition codec lmdb s w
  | .logout _ | .resetPassword _ _ _ | .newApiKey _ | .delete _ _ => True

theorem StoreInv.loginJwtUser {s : AuthState F} (hs : StoreInv codec lmdb env s) {create : Bool}
    {username password source : String} {ldap : Option Bool} {new : NewUser env}
    (hcond : s.user username = none ∧ (create = true ∧ source = "moonraker" ∨
      create = false ∧ source = "ldap" ∧ ldap = some true) → PlainName username) :
    StoreInv codec lmdb env (s.loginJwtUser create username password source ldap new) := by
  rw [AuthState.loginJwtUser]
  split
  · exact hs
  rename_i hsource
  split
  · exact hs
  rename_i hreserved
  have hapi : username ≠ apiUser := fun h => hreserved (h ▸ List.mem_cons_self)
  split
  · exact hs
  rename_i hldap
  split
  · rename_i hcreate
    split
    · rename_i hashed hnone hhash
      refine (hs.addUser (hcond ⟨hnone, ?_⟩) (valid_newUser hapi ..)).changeUser fun info hinfo =>
        valid_addKey hinfo new
      by_cases hsrc : source = "ldap"
      · obtain ⟨hnot, hok⟩ := not_or.mp fun h => hldap ⟨hsrc, h⟩
        exact Or.inr ⟨Bool.eq_false_of_not_eq_true hnot, hsrc, not_not.mp hok⟩
      · refine Or.inl ⟨?_, ?_⟩
        · exact hcreate.resolve_right fun h => hsrc h.1
        · by_contra hne
          exact hsource ⟨hne, hsrc⟩
    · exact hs
  · split
    · exact hs
    · split
      · exact hs.changeUser fun info hinfo => valid_addKey hinfo new
      · exact hs

theorem storeInv_step {s t : AuthState F} (hs : StoreInv codec lmdb env s) {e : AuthEvent env}
    (hstep : s.step codec lmdb e = some t) (hcond : StoreCondition codec lmdb s e) :
    StoreInv codec lmdb env t := by
  cases e with
  | login create username password source ldap new =>
    rw [← Option.some.inj hstep]
    exact hs.loginJwtUser hcond
  | logout current =>
    rw [← Option.some.inj hstep, AuthState.handleLogout]
    split
    · exact hs
    · split
      · exact hs
      · rename_i hreserved
        exact hs.changeUser fun info hinfo =>
          valid_logout (fun h => hreserved (h ▸ List.mem_cons_self)) hinfo
  | resetPassword current password newPassword =>
    rw [← Option.some.inj hstep, AuthState.handlePasswordReset.eq_def]
    split
    · exact hs
    · split
      · split
        · exact hs
        · exact hs.changeUser fun info hinfo => valid_setItem hinfo (by decide) _
      · exact hs
  | newApiKey apiKey =>
    rw [← Option.some.inj hstep]
    exact hs.changeUser fun info hinfo => valid_setItem hinfo (by decide) _
  | delete username current =>
    rw [← Option.some.inj hstep]
    exact hs.deleteJwtUser username current
  | write =>
    rw [AuthState.step] at hstep
    split at hstep
    · cases hstep
    · rename_i w pending hpending
      rw [← Option.some.inj hstep]
      exact hs.write hpending (hcond w (by rw [hpending]; rfl))

/-- A request leaves what is stored, and a write leaves it for the other names. -/
def KeepsOthers (codec : RecordCodec F) (s : AuthState F) (e : AuthEvent env) (t : AuthState F) :
    Prop :=
  ∀ name, (e = .write → ∀ w ∈ s.pending.head?, w.username ≠ name) →
    stored codec t.db name = stored codec s.db name

theorem db_changeUser (s : AuthState F) (username : String) (f : UserInfo F → UserInfo F) :
    (s.changeUser username f).db = s.db := by
  rw [AuthState.changeUser]
  split
  · rfl
  · rfl

/-- The requests themselves store nothing. -/
theorem db_request {s t : AuthState F} {e : AuthEvent env} (hstep : s.step codec lmdb e = some t)
    (he : e ≠ .write) : t.db = s.db := by
  cases e with
  | login create username password source ldap new =>
    rw [← Option.some.inj hstep, AuthState.loginJwtUser]
    repeat' split
    all_goals first | rfl | exact db_changeUser ..
  | logout current =>
    rw [← Option.some.inj hstep, AuthState.handleLogout]
    repeat' split
    all_goals first | rfl | exact db_changeUser ..
  | resetPassword current password newPassword =>
    rw [← Option.some.inj hstep, AuthState.handlePasswordReset.eq_def]
    repeat' split
    all_goals first | rfl | exact db_changeUser ..
  | newApiKey apiKey =>
    rw [← Option.some.inj hstep]
    exact db_changeUser ..
  | delete username current =>
    rw [← Option.some.inj hstep, AuthState.deleteJwtUser]
    repeat' split
    all_goals rfl
  | write => exact absurd rfl he

theorem keepsOthers_step {s t : AuthState F} (hs : StoreInv codec lmdb env s) {e : AuthEvent env}
    (hstep : s.step codec lmdb e = some t) (hcond : StoreCondition codec lmdb s e) :
    KeepsOthers codec s e t := by
  intro name hothers
  by_cases he : e = .write
  · subst he
    rw [AuthState.step] at hstep
    split at hstep
    · cases hstep
    · rename_i w pending hpending
      have hhead : w ∈ s.pending.head? := by rw [hpending]; rfl
      have hplain : PlainName w.username := hs.writes w (hpending ▸ List.mem_cons_self)
      obtain ⟨-, hstored⟩ := runWrite_spec hplain hs.readable (hcond w hhead)
      rw [← Option.some.inj hstep, hstored, written_of_ne _ (hothers rfl w hhead).symm]
  · rw [db_request hstep he]

/-! ## A restart -/

/-- The users as they are read from the database, and as `__init__` loads them, are those in
memory. -/
def SurvivesRestart (codec : RecordCodec F) (lmdb : Lmdb) (env : AuthEnv F) (s : AuthState F) :
    Prop :=
  (∃ d, s.db.asDict codec userDb = some d ∧ ∀ name, d.get name = (s.user name).map .dict) ∧
  ∀ apiKey createdOn, ∃ s', AuthState.start codec lmdb env apiKey createdOn s.db = some s' ∧
    ∀ name, s'.user name = s.user name

theorem exists_syncNamespace {db : Database} (h : Readable codec lmdb db)
    {value : Table String (Value F)} (hvalue : ∀ name, value.get name = stored codec db name)
    {name : String} (hname : value.get name ≠ none) :
    ∃ db', db.syncNamespace codec lmdb userDb value = some db' := by
  obtain ⟨records, hrecords, hencoded⟩ := h
  have hmap := Table.mapM_of_forall (t := value) (f := fun key v => do
      let bytes ← encodeValue codec v
      if lmdb.takes key bytes then some bytes else none) fun key v hv => by
    rw [hvalue, stored, Table.get₂, hrecords, Option.bind_some] at hv
    obtain ⟨bytes, hbytes, hdecoded⟩ := Option.bind_eq_some_iff.mp hv
    obtain ⟨htakes, v', hv'⟩ := hencoded key bytes hbytes
    rw [decodeValue_encodeValue hv'] at hdecoded
    obtain rfl := Option.some.inj hdecoded
    exact ⟨bytes, Option.bind_eq_some_iff.mpr ⟨bytes, hv', if_pos htakes⟩⟩
  rw [Database.syncNamespace, hmap]
  exact ⟨_, if_neg (Table.keys_ne_empty hname)⟩

theorem survivesRestart_of_settled {s : AuthState F} (hs : StoreInv codec lmdb env s)
    (hpending : s.pending = []) : SurvivesRestart codec lmdb env s := by
  have hstored (name : String) : stored codec s.db name = (s.user name).map .dict := by
    have hsettles := hs.settles name
    rw [hpending] at hsettles
    exact hsettles
  obtain ⟨d, hd, hget⟩ := asDict_of_readable hs.readable
  refine ⟨⟨d, hd, fun name => (hget name).trans (hstored name)⟩, fun apiKey createdOn => ?_⟩
  have hapi : s.user apiUser ≠ none := by
    obtain ⟨object, hobject⟩ := Option.ne_none_iff_exists'.mp hs.api
    obtain ⟨info, hinfo, -⟩ := hs.live apiUser object hobject
    rw [AuthState.user, hobject, Option.bind_some, hinfo]
    exact Option.some_ne_none info
  obtain ⟨users, husers, hloaded⟩ := initUsers_of_valid s.user
    (fun name => (hget name).trans (hstored name)) (fun name info hinfo => hs.valid hinfo) hapi
    apiKey createdOn
  have hvalue (name : String) : (users.filterMap fun _ info => some (Value.dict info)).get name =
      stored codec s.db name := by
    rw [Table.get_filterMap, hloaded, hstored]
    cases s.user name with
    | none => rfl
    | some info => rfl
  have hvalueApi : (users.filterMap fun _ info => some (Value.dict info)).get apiUser ≠ none := by
    rw [hvalue, hstored]
    exact fun hnone => hapi (Option.map_eq_none_iff.mp hnone)
  obtain ⟨db', hsync⟩ := exists_syncNamespace hs.readable hvalue hvalueApi
  obtain ⟨records, hrecords, -⟩ := hs.readable
  have hopen : s.db.openNamespace lmdb userDb = some s.db := by
    rw [Database.openNamespace, hrecords]
  refine ⟨initState users db',
    start_eq_some_iff.mpr ⟨s.db, d, users, db', hopen, hd, husers, hsync, rfl⟩, fun name => ?_⟩
  rw [user_initState, hloaded]

/-- **The users survive a restart**: in every run in which new users have plain names and the
writes are taken, each write leaves the other users alone, and once none is pending the
database holds the users. -/
theorem survivesRestart_of_run {apiKey : String} {createdOn : F} {db : Database}
    {s t : AuthState F} {es : List (AuthEvent env)}
    (hstart : AuthState.start codec lmdb env apiKey createdOn db = some s)
    (hplain : ∀ name, s.user name ≠ none → PlainName name)
    (h : Run (fun s e t => s.step codec lmdb e = some t ∧ StoreCondition codec lmdb s e) s es t) :
    Run (fun s e t => s.step codec lmdb e = some t ∧ KeepsOthers codec s e t) s es t ∧
    (t.pending = [] → SurvivesRestart codec lmdb env t) := by
  have hinit := storeInv_start hstart hplain
  constructor
  · apply (h.forall_steps (P := KeepsOthers codec) hinit
      (fun s e t hs hstep => storeInv_step hs hstep.1 hstep.2)
      fun s e t hs hstep => keepsOthers_step hs hstep.1 hstep.2).mono
    rintro s e t ⟨⟨hstep, -⟩, hkeeps⟩
    exact ⟨hstep, hkeeps⟩
  · exact survivesRestart_of_settled (h.invariant hinit
      fun s e t hs hstep => storeInv_step hs hstep.1 hstep.2)

/-! ## Two runs from an empty database -/

/-- The fields of a record, where a number is `none`, and its text. -/
abbrev UserText := List (String × Option String) × String

/-- The records of the API user, and of a user who is logged in. -/
def userTexts : List UserText :=
  [([("username", some apiUser), ("api_key", some "4f1a"), ("created_on", none)],
    "\x7b\"username\":\"_API_KEY_USER_\",\"api_key\":\"4f1a\",\"created_on\":0.0\x7d"),
  ([("username", some "anna"), ("password", some "9d"), ("salt", some "c0"),
      ("source", some "moonraker"), ("created_on", none), ("jwt_secret", some "5e"),
      ("jwk_id", some "k1")],
    "\x7b\"username\":\"anna\",\"password\":\"9d\",\"salt\":\"c0\",\"source\":\"moonraker\"," ++
    "\"created_on\":0.0,\"jwt_secret\":\"5e\",\"jwk_id\":\"k1\"\x7d")]

def textBytes (text : String) : List UInt8 := encodeUtf8 text.toList

/-- The value of a field. -/
def fieldValue : Option String → Value Unit
  | some s => .str s
  | none => .float ()

def valueField : Value Unit → Option (Option String)
  | .str s => some (some s)
  | .float _ => some none
  | _ => none

theorem fieldValue_of_valueField {v : Value Unit} {field : Option String}
    (h : valueField v = some field) : fieldValue field = v := by
  cases v with
  | str s => rw [← Option.some.inj h]; rfl
  | float x => rw [← Option.some.inj h]; rfl
  | null => cases h
  | bool b => cases h
  | int n => cases h
  | list items => cases h
  | dict items => cases h

/-- The fields of a dictionary, if each is a string or a number. -/
def dictFields : List (String × Value Unit) → Option (List (String × Option String))
  | [] => some []
  | (key, v) :: items => do
    let field ← valueField v
    let fields ← dictFields items
    return (key, field) :: fields

theorem map_of_dictFields {items : List (String × Value Unit)}
    {fields : List (String × Option String)} (h : dictFields items = some fields) :
    fields.map (fun field => (field.1, fieldValue field.2)) = items := by
  induction items generalizing fields with
  | nil =>
    rw [← Option.some.inj h]
    rfl
  | cons item items ih =>
    obtain ⟨key, v⟩ := item
    obtain ⟨field, hfield, h⟩ := Option.bind_eq_some_iff.mp h
    obtain ⟨fields', hfields, h⟩ := Option.bind_eq_some_iff.mp h
    rw [← Option.some.inj h, List.map_cons, ih hfields, fieldValue_of_valueField hfield]

/-- What JSON makes of these records. -/
def userCodec : RecordCodec Unit where
  packDouble _ := [0, 0, 0, 0, 0, 0, 0, 0]
  unpackDouble _ := ()
  unpack_pack _ := rfl
  dumps
    | .dict items => ((dictFields items).bind (List.lookup · userTexts)).map textBytes
    | _ => none
  loads bytes := (userTexts.find? fun e => textBytes e.2 = bytes).map fun e =>
    .dict (e.1.map fun field => (field.1, fieldValue field.2))
  loads_dumps v bytes h := by
    cases v with
    | dict items =>
      obtain ⟨text, htext, rfl⟩ := Option.map_eq_some_iff.mp h
      obtain ⟨fields, hfields, hlookup⟩ := Option.bind_eq_some_iff.mp htext
      have hfind : ∀ e ∈ userTexts,
          userTexts.find? (fun e' => textBytes e'.2 = textBytes e.2) = some e := by
        decide +kernel
      have hmem : (fields, text) ∈ userTexts := by
        obtain ⟨l₁, l₂, htexts, -⟩ := List.lookup_eq_some_iff.mp hlookup
        rw [htexts]
        exact List.mem_append_right _ List.mem_cons_self
      rw [hfind _ hmem, Option.map_some, map_of_dictFields hfields]
    | null => cases h
    | bool b => cases h
    | int n => cases h
    | float x => cases h
    | str s => cases h
    | list items => cases h
  loads_ne_null bytes _ h := by
    obtain ⟨e, -, he⟩ := Option.map_eq_some_iff.mp h
    cases he
  dumps_list _ _ h := nomatch h
  dumps_dict items bytes h := by
    obtain ⟨text, htext, rfl⟩ := Option.map_eq_some_iff.mp h
    obtain ⟨fields, -, hlookup⟩ := Option.bind_eq_some_iff.mp htext
    have hhead : ∀ e ∈ userTexts, (textBytes e.2).head? = some 123 := by decide +kernel
    obtain ⟨l₁, l₂, htexts, -⟩ := List.lookup_eq_some_iff.mp hlookup
    refine hhead (fields, text) ?_
    rw [htexts]
    exact List.mem_append_right _ List.mem_cons_self

/-- Each salt gives one hash, and every key is one. -/
def userEnv : AuthEnv Unit := ⟨fun _ _ => some "9d", fun _ => true⟩

def newUser : NewUser userEnv := ⟨"c0", (), "5e", "k1", rfl⟩

def takesAll : Lmdb := ⟨fun _ => true, fun _ _ => true⟩

/-- The state after the first start. -/
def freshState : Option (AuthState Unit) :=
  AuthState.start userCodec takesAll userEnv "4f1a" () .empty

/-- A user is created, and what is pending is written. -/
def createUser (username : String) : List (AuthEvent userEnv) :=
  [.login true username "secret" "moonraker" none newUser, .write, .write]

instance (username : String) : Decidable (PlainName username) :=
  inferInstanceAs (Decidable (_ ∧ _))

instance (codec : RecordCodec F) (lmdb : Lmdb) (s : AuthState F) :
    (w : AuthWrite) → Decidable (WriteCondition codec lmdb s w)
  | .insert _ _ => decidable_of_iff _ (Option.any_eq_true _ _)
  | .delete _ => inferInstanceAs (Decidable True)

instance (codec : RecordCodec F) (lmdb : Lmdb) (s : AuthState F) :
    (e : AuthEvent env) → Decidable (StoreCondition codec lmdb s e)
  | .login .. => inferInstanceAs (Decidable (_ → _))
  | .write => decidable_of_iff (∀ w ∈ s.pending.head?.toList, WriteCondition codec lmdb s w)
      ⟨fun h w hw => h w (Option.mem_toList.mpr hw), fun h w hw => h w (Option.mem_toList.mp hw)⟩
  | .logout _ | .resetPassword .. | .newApiKey _ | .delete .. => inferInstanceAs (Decidable True)

theorem survivesRestart_of_anna : ∃ s t : AuthState Unit, t.user "anna" ≠ none ∧
    Run (fun s e t => s.step userCodec takesAll e = some t ∧ KeepsOthers userCodec s e t) s
      (createUser "anna") t ∧ SurvivesRestart userCodec takesAll userEnv t := by
  obtain ⟨s, hstart, hs⟩ : ∃ s, freshState = some s ∧
      (decide (s.users.keys ⊆ {apiUser}) && ((createUser "anna").foldlM (fun s e =>
        if StoreCondition userCodec takesAll s e then s.step userCodec takesAll e else none) s).any
          fun t => t.pending.isEmpty && (t.user "anna").isSome) = true :=
    (Option.any_eq_true _ _).mp (by decide +kernel)
  obtain ⟨hkeys, hrun⟩ := Bool.and_eq_true_iff.mp hs
  obtain ⟨t, hrun, ht⟩ := Run.exists_of_any hrun
  obtain ⟨hpending, hanna⟩ := Bool.and_eq_true_iff.mp ht
  have hplain (name : String) (hname : s.user name ≠ none) : PlainName name := by
    have hmem : name ∈ s.users.keys := by
      rw [Finmap.mem_keys, Finmap.mem_iff]
      obtain ⟨info, hinfo⟩ := Option.ne_none_iff_exists'.mp hname
      obtain ⟨object, hobject, -⟩ := Option.bind_eq_some_iff.mp hinfo
      exact ⟨object, hobject⟩
    rw [Finset.mem_singleton.mp (of_decide_eq_true hkeys hmem)]
    decide
  obtain ⟨hkeeps, hsurvives⟩ := survivesRestart_of_run hstart hplain (hrun.mono fun s e t hstep => by
    split at hstep
    · next hcond => exact ⟨hstep, hcond⟩
    · cases hstep)
  refine ⟨s, t, fun hnone => ?_, hkeeps, hsurvives (List.isEmpty_iff.mp hpending)⟩
  rw [hnone] at hanna
  cases hanna

/-- A user whose name ends with a dot is in memory, but is never stored. -/
theorem lost_user_with_dot : ∃ s t : AuthState Unit, freshState = some s ∧
    Run (fun s e t => s.step userCodec takesAll e = some t) s (createUser "anna.") t ∧
    t.pending = [] ∧ ¬SurvivesRestart userCodec takesAll userEnv t := by
  obtain ⟨s, hstart, hs⟩ : ∃ s, freshState = some s ∧
      ((createUser "anna.").foldlM (AuthState.step userCodec takesAll) s).any
        (fun t => t.pending.isEmpty && (t.user "anna.").isSome &&
          (t.db.asDict userCodec userDb).all fun d => (d.get "anna.").isNone) = true :=
    (Option.any_eq_true _ _).mp (by decide +kernel)
  obtain ⟨t, hrun, ht⟩ := Run.exists_of_any hs
  obtain ⟨ht, hlost⟩ := Bool.and_eq_true_iff.mp ht
  obtain ⟨hpending, huser⟩ := Bool.and_eq_true_iff.mp ht
  refine ⟨s, t, hstart, hrun, List.isEmpty_iff.mp hpending, ?_⟩
  rintro ⟨⟨d, hd, hget⟩, -⟩
  rw [hd] at hlost
  have hnone : (t.user "anna.").map Value.dict = none := by
    rw [← hget]
    exact Option.isNone_iff_eq_none.mp hlost
  rw [Option.map_eq_none_iff.mp hnone] at huser
  cases huser

end FlsunT1.Moonraker
