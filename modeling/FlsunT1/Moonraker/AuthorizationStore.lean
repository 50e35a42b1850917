/-
  Moonraker/AuthorizationStore.lean --- the users in memory and in the database.

  What is stored is compared with the users through the writes that are pending: the last write
  of a name counts, and it stores what the user is in memory.
-/
import FlsunT1.Moonraker.Authorization

set_option autoImplicit false

namespace FlsunT1.Moonraker

open Library

variable {F : Type} {codec : RecordCodec F} {lmdb : Lmdb} {env : AuthEnv F}

/-! ## Valid users -/

/-- A user that `__init__` keeps as it is. -/
structure ValidInfo (env : AuthEnv F) (username : String) (info : UserInfo F) : Prop where
  fields : (requiredFields username).all (UserInfo.has info) = true
  key : username ≠ apiUser → ∀ secret, info.lookup "jwt_secret" = some secret →
    env.validKey secret = true ∧ UserInfo.has info "jwk_id" = true

theorem has_setItem (info : UserInfo F) (k x : String) (v : Value F) :
    UserInfo.has (Dict.setItem k v info) x = (decide (x = k) || UserInfo.has info x) := by
  rw [UserInfo.has, Dict.lookup_setItem, UserInfo.has]
  by_cases hx : x = k
  · rw [if_pos hx, decide_eq_true hx]
    rfl
  · rw [if_neg hx, decide_eq_false hx, Bool.false_or]

theorem lookup_pop (info : UserInfo F) (k x : String) :
    List.lookup x (UserInfo.pop info k) = if x = k then none else info.lookup x :=
  ObjectView.lookup_putItem k x none info

theorem has_pop (info : UserInfo F) (k x : String) :
    UserInfo.has (UserInfo.pop info k) x = (!decide (x = k) && UserInfo.has info x) := by
  rw [UserInfo.has, lookup_pop, UserInfo.has]
  by_cases hx : x = k
  · rw [if_pos hx, decide_eq_true hx]
    rfl
  · rw [if_neg hx, decide_eq_false hx]
    rfl

theorem requiredFields_of_ne {username : String} (h : username ≠ apiUser) :
    requiredFields username = ["username", "password", "salt", "created_on"] := if_neg h

theorem fields_setItem {username : String} {info : UserInfo F} {k : String} {v : Value F}
    (h : (requiredFields username).all (UserInfo.has info) = true) :
    (requiredFields username).all (UserInfo.has (Dict.setItem k v info)) = true := by
  rw [List.all_eq_true] at h ⊢
  intro item hitem
  rw [has_setItem, h item hitem, Bool.or_true]

theorem fields_pop {username : String} {info : UserInfo F} {k : String}
    (h : (requiredFields username).all (UserInfo.has info) = true)
    (hk : k ∉ requiredFields username) :
    (requiredFields username).all (UserInfo.has (UserInfo.pop info k)) = true := by
  rw [List.all_eq_true] at h ⊢
  intro item hitem
  have hne : item ≠ k := fun heq => hk (heq ▸ hitem)
  rw [has_pop, decide_eq_false hne, h item hitem]
  rfl

theorem loadUser_of_valid {username : String} {info : UserInfo F} (h : ValidInfo env username info)
    (createdOn : F) : loadUser env createdOn username (.dict info) = some (some info) := by
  rw [loadUser]
  by_cases hapi : username = apiUser
  · have hkey : UserInfo.has info "api_key" = true := by
      refine List.all_eq_true.mp h.fields _ ?_
      rw [hapi]
      decide
    obtain ⟨apiKey, hapiKey⟩ := Option.isSome_iff_exists.mp hkey
    rw [if_pos hapi, hapiKey, Option.map_some, if_pos h.fields]
  · rw [if_neg hapi, if_pos h.fields]
    split
    · rfl
    · rename_i secret hsecret
      obtain ⟨hvalid, hjwk⟩ := h.key hapi secret hsecret
      rw [hvalid, hjwk]
      rfl

theorem valid_of_loadUser {username : String} {v : Value F} {info : UserInfo F} {createdOn : F}
    (h : loadUser env createdOn username v = some (some info)) : ValidInfo env username info := by
  cases v with
  | dict info' =>
    rw [loadUser] at h
    by_cases hapi : username = apiUser
    · rw [if_pos hapi] at h
      obtain ⟨apiKey, -, hinfo⟩ := Option.map_eq_some_iff.mp h
      refine ⟨?_, fun hne => absurd hapi hne⟩
      rw [← Option.some.inj hinfo]
      split
      · rename_i hfields
        exact hfields
      · rw [hapi]
        rfl
    · rw [if_neg hapi] at h
      split at h
      · rename_i hfields
        split at h
        · rename_i hnone
          obtain rfl := Option.some.inj (Option.some.inj h)
          exact ⟨hfields, fun _ secret hsecret => nomatch hnone.symm.trans hsecret⟩
        · rename_i secret hsecret
          split at h
          · rename_i hkey
            obtain rfl := Option.some.inj (Option.some.inj h)
            refine ⟨hfields, fun _ secret' hsecret' => ?_⟩
            obtain rfl := Option.some.inj (hsecret.symm.trans hsecret')
            exact Bool.and_eq_true_iff.mp hkey
          · obtain rfl := Option.some.inj (Option.some.inj h)
            have hnot (k : String) (hk : k = "jwt_secret" ∨ k = "jwk_id") :
                k ∉ requiredFields username := by
              rw [requiredFields_of_ne hapi]
              obtain rfl | rfl := hk
              · decide
              · decide
            refine ⟨fields_pop (fields_pop hfields (hnot _ (Or.inl rfl))) (hnot _ (Or.inr rfl)),
              fun _ secret' hsecret' => ?_⟩
            rw [lookup_pop, lookup_pop, if_neg (by decide), if_pos rfl] at hsecret'
            cases hsecret'
      · cases h
  | str s =>
    rw [loadUser] at h
    split at h
    · cases h
    · cases h
  | list items =>
    rw [loadUser] at h
    split at h
    · cases h
    · cases h
  | null => cases h
  | bool b => cases h
  | int n => cases h
  | float x => cases h

theorem valid_newUser {username : String} (h : username ≠ apiUser)
    (password salt source : String) (createdOn : F) : ValidInfo env username
      [("username", .str username), ("password", .str password), ("salt", .str salt),
        ("source", .str source), ("created_on", .float createdOn)] := by
  refine ⟨?_, fun _ secret hsecret => nomatch hsecret⟩
  rw [requiredFields_of_ne h]
  rfl

theorem valid_addKey {username : String} {info : UserInfo F} (h : ValidInfo env username info)
    (new : NewUser env) : ValidInfo env username (addKey new info) := by
  refine ⟨fields_setItem (fields_setItem h.fields), fun _ secret hsecret => ⟨?_, ?_⟩⟩
  · rw [addKey, Dict.lookup_setItem, if_neg (by decide), Dict.lookup_setItem, if_pos rfl] at hsecret
    rw [← Option.some.inj hsecret]
    exact new.secret_valid
  · rw [addKey, has_setItem]
    rfl

theorem valid_logout {username : String} {info : UserInfo F} (hne : username ≠ apiUser)
    (h : ValidInfo env username info) :
    ValidInfo env username (UserInfo.pop (UserInfo.pop info "jwt_secret") "jwk_id") := by
  have hnot (k : String) (hk : k = "jwt_secret" ∨ k = "jwk_id") :
      k ∉ requiredFields username := by
    rw [requiredFields_of_ne hne]
    obtain rfl | rfl := hk
    · decide
    · decide
  refine ⟨fields_pop (fields_pop h.fields (hnot _ (Or.inl rfl))) (hnot _ (Or.inr rfl)),
    fun _ secret hsecret => ?_⟩
  rw [lookup_pop, lookup_pop, if_neg (by decide), if_pos rfl] at hsecret
  cases hsecret

theorem valid_setItem {username : String} {info : UserInfo F} (h : ValidInfo env username info)
    {k : String} (hk : k ≠ "jwt_secret") (v : Value F) :
    ValidInfo env username (Dict.setItem k v info) := by
  refine ⟨fields_setItem h.fields, fun hne secret hsecret => ?_⟩
  rw [Dict.lookup_setItem, if_neg hk.symm] at hsecret
  obtain ⟨hvalid, hjwk⟩ := h.key hne secret hsecret
  refine ⟨hvalid, ?_⟩
  rw [has_setItem, hjwk, Bool.or_true]

/-! ## What a restart loads -/

/-- A restart over a database that holds valid users, the API user among them, loads these. -/
theorem initUsers_of_valid {d : Table String (Value F)} (users : String → Option (UserInfo F))
    (hd : ∀ name, d.get name = (users name).map .dict)
    (hvalid : ∀ name info, users name = some info → ValidInfo env name info)
    (hapi : users apiUser ≠ none) (apiKey : String) (createdOn : F) :
    ∃ loaded, initUsers env apiKey createdOn d = some loaded ∧
      ∀ name, loaded.get name = users name := by
  have hload (name : String) (v : Value F) (hv : d.get name = some v) :
      loadUser env createdOn name v = some (users name) := by
    rw [hd] at hv
    obtain ⟨info, hinfo, rfl⟩ := Option.map_eq_some_iff.mp hv
    rw [loadUser_of_valid (hvalid name info hinfo), hinfo]
  have hmap := Table.mapM_of_forall (f := loadUser env createdOn) (t := d)
    fun name v hv => ⟨users name, hload name v hv⟩
  have hget (name : String) : ((d.filterMap (loadUser env createdOn)).filterMap
      fun _ info => info).get name = users name := by
    rw [Table.get_filterMap, Table.get_filterMap]
    cases hv : d.get name with
    | none =>
      rw [hd] at hv
      exact (Option.map_eq_none_iff.mp hv).symm
    | some v =>
      rw [Option.bind_some, hload name v hv]
      rfl
  obtain ⟨info, hinfo⟩ := Option.ne_none_iff_exists'.mp hapi
  refine ⟨_, ?_, hget⟩
  rw [initUsers, hmap]
  simp only [Option.bind_eq_bind, Option.bind_some, hget, hinfo]
  rfl

/-- The users that `__init__` makes are valid, and the API user is one. -/
theorem initUsers_valid {d : Table String (Value F)} {users : Table String (UserInfo F)}
    {apiKey : String} {createdOn : F} (h : initUsers env apiKey createdOn d = some users) :
    (∀ name info, users.get name = some info → ValidInfo env name info) ∧
    users.get apiUser ≠ none := by
  rw [initUsers] at h
  obtain ⟨loaded, hloaded, h⟩ := Option.bind_eq_some_iff.mp h
  have hvalid (name : String) (info : UserInfo F)
      (hinfo : (loaded.filterMap fun _ info => info).get name = some info) :
      ValidInfo env name info := by
    rw [Table.get_filterMap, Table.get_mapM hloaded] at hinfo
    obtain ⟨kept, hkept, hsome⟩ := Option.bind_eq_some_iff.mp hinfo
    obtain ⟨v, -, hv⟩ := Option.bind_eq_some_iff.mp hkept
    rw [show kept = some info from hsome] at hv
    exact valid_of_loadUser hv
  rw [← Option.some.inj h]
  split
  · refine ⟨fun name info hinfo => ?_, fun hnone => ?_⟩
    · rw [Table.get_set] at hinfo
      split at hinfo
      · rename_i hname
        obtain rfl := Option.some.inj hinfo
        rw [hname]
        exact ⟨rfl, fun hne => absurd rfl hne⟩
      · exact hvalid name info hinfo
    · rw [Table.get_set, if_pos rfl] at hnone
      cases hnone
  · rename_i info hinfo
    exact ⟨hvalid, fun hnone => absurd (hinfo.symm.trans hnone) (Option.some_ne_none _)⟩

/-! ## Names that are keys -/

/-- A name that is the key of a record of its own. -/
def PlainName (username : String) : Prop := username ≠ "" ∧ '.' ∉ username.toList

theorem process_plain {username : String} (h : PlainName username) :
    (DbKey.text username).process = some [username] := by
  have hsplit := splitOn_append h.2 []
  rw [List.append_nil] at hsplit
  have hkeys : (username.toList.splitOn '.').map String.ofList = [username] := by
    rw [hsplit, List.splitOn_nil, List.modifyHead_cons, List.append_nil, List.map_singleton,
      String.ofList_toList]
  rw [DbKey.process]
  simp only [hkeys]
  refine if_neg (not_or.mpr ⟨List.cons_ne_nil _ _, fun hmem => ?_⟩)
  exact h.1 (List.mem_singleton.mp hmem).symm

/-! ## The writes -/

/-- The record of a user in the database. -/
def stored (codec : RecordCodec F) (db : Database) (username : String) : Option (Value F) :=
  (db.get₂ userDb username).bind (decodeValue codec)

/-- The namespace is open, and every record of it is the encoding of a value. -/
def Readable (codec : RecordCodec F) (lmdb : Lmdb) (db : Database) : Prop :=
  ∃ records, db.get userDb = some records ∧
    ∀ username bytes, records.get username = some bytes →
      lmdb.takes username bytes = true ∧ ∃ v, encodeValue codec v = some bytes

theorem asDict_of_readable {db : Database} (h : Readable codec lmdb db) :
    ∃ d, db.asDict codec userDb = some d ∧
      ∀ username, d.get username = stored codec db username := by
  obtain ⟨records, hrecords, hencoded⟩ := h
  have hmap := Table.mapM_of_forall (f := fun _ bytes => decodeValue codec bytes) (t := records)
    fun username bytes hbytes => by
      obtain ⟨-, v, hv⟩ := hencoded username bytes hbytes
      exact ⟨v, decodeValue_encodeValue hv⟩
  refine ⟨records.filterMap fun _ bytes => decodeValue codec bytes, ?_, fun username => ?_⟩
  · rw [Database.asDict, hrecords]
    exact hmap
  · rw [Table.get_filterMap, stored, Table.get₂, hrecords]
    rfl

/-- What is stored for a name after a write. -/
def written (objects : Table String (List (UserInfo F))) (username : String) (w : AuthWrite)
    (old : Option (Value F)) : Option (Value F) :=
  if w.username = username then
    match w with
    | .insert username object => some (.dict ((objectAt objects username object).getD []))
    | .delete _ => none
  else old

theorem written_insert (objects : Table String (List (UserInfo F))) (name username : String)
    (object : ℕ) (old : Option (Value F)) :
    written objects name (.insert username object) old =
      if name = username then some (.dict ((objectAt objects username object).getD []))
      else old := by
  by_cases hname : name = username
  · rw [if_pos hname]
    exact if_pos hname.symm
  · rw [if_neg hname]
    exact if_neg fun h => hname h.symm

theorem written_delete (objects : Table String (List (UserInfo F))) (name username : String)
    (old : Option (Value F)) :
    written objects name (.delete username) old = if name = username then none else old := by
  by_cases hname : name = username
  · rw [if_pos hname]
    exact if_pos hname.symm
  · rw [if_neg hname]
    exact if_neg fun h => hname h.symm

theorem written_of_ne (objects : Table String (List (UserInfo F))) {name : String} {w : AuthWrite}
    (h : name ≠ w.username) (old : Option (Value F)) : written objects name w old = old := by
  cases w with
  | insert username object => exact (written_insert ..).trans (if_neg h)
  | delete username => exact (written_delete ..).trans (if_neg h)

/-- What is stored for a name after all the writes that are pending. -/
def settled (objects : Table String (List (UserInfo F))) (username : String)
    (pending : List AuthWrite) (old : Option (Value F)) : Option (Value F) :=
  pending.foldl (fun old w => written objects username w old) old

theorem settled_concat (objects : Table String (List (UserInfo F))) (username : String)
    (pending : List AuthWrite) (w : AuthWrite) (old : Option (Value F)) :
    settled objects username (pending ++ [w]) old =
      written objects username w (settled objects username pending old) := List.foldl_append

theorem settled_congr {objects objects' : Table String (List (UserInfo F))} {username : String}
    (h : objects'.get username = objects.get username) (pending : List AuthWrite)
    (old : Option (Value F)) :
    settled objects' username pending old = settled objects username pending old := by
  induction pending generalizing old with
  | nil => rfl
  | cons w pending ih =>
    have hw : written objects' username w old = written objects username w old := by
      cases w with
      | insert username' object =>
        rw [written_insert, written_insert]
        split
        · rename_i hname
          rw [objectAt, objectAt, ← hname, h]
        · rfl
      | delete username' => rfl
    rw [settled, List.foldl_cons, ← settled, hw, ih]
    rfl

theorem stored_put (db : Database) (username name : String) (bytes : List UInt8) :
    stored codec (db.put userDb username bytes) name =
      if name = username then decodeValue codec bytes else stored codec db name := by
  rw [stored, Database.get₂_put]
  by_cases hname : name = username
  · rw [if_pos ⟨rfl, hname⟩, if_pos hname]
    rfl
  · rw [if_neg fun h => hname h.2, if_neg hname, stored]

theorem stored_removeRecord (db : Database) (username name : String) (drop : Bool) :
    stored codec (db.removeRecord userDb username drop) name =
      if name = username then none else stored codec db name := by
  rw [stored, Database.get₂_removeRecord]
  by_cases hname : name = username
  · rw [if_pos ⟨rfl, hname⟩, if_pos hname]
    rfl
  · rw [if_neg fun h => hname h.2, if_neg hname, stored]

theorem readable_put {db : Database} (h : Readable codec lmdb db) {v : Value F}
    {bytes : List UInt8} {username : String} (hbytes : encodeValue codec v = some bytes)
    (htakes : lmdb.takes username bytes = true) :
    Readable codec lmdb (db.put userDb username bytes) := by
  obtain ⟨records, hrecords, hencoded⟩ := h
  refine ⟨records.set username bytes, ?_, fun name bytes' hget => ?_⟩
  · rw [Database.put, Table.get_set, if_pos rfl, hrecords]
    rfl
  · rw [Table.get_set] at hget
    split at hget
    · rename_i hname
      rw [← Option.some.inj hget, hname]
      exact ⟨htakes, v, hbytes⟩
    · exact hencoded name bytes' hget

theorem readable_removeRecord {db : Database} (h : Readable codec lmdb db) (username : String) :
    Readable codec lmdb (db.removeRecord userDb username false) := by
  obtain ⟨records, hrecords, hencoded⟩ := h
  refine ⟨records.erase username, ?_, fun name bytes hget => ?_⟩
  · rw [Database.removeRecord, hrecords]
    simp only [Bool.false_eq_true, and_false, if_false, Option.getD_some]
    rw [Table.get_set, if_pos rfl]
  · rw [Table.get_erase] at hget
    split at hget
    · cases hget
    · exact hencoded name bytes hget

/-- A dictionary that is to be stored is encoded, and `lmdb` takes it. -/
def WriteCondition (codec : RecordCodec F) (lmdb : Lmdb) (s : AuthState F) : AuthWrite → Prop
  | .insert username object => ∃ bytes,
      encodeValue codec (.dict ((objectAt s.objects username object).getD [])) = some bytes ∧
        lmdb.takes username bytes = true
  | .delete _ => True

/-- A write of a plain name changes what is stored for this name alone. -/
theorem runWrite_spec {s : AuthState F} {w : AuthWrite} (hplain : PlainName w.username)
    (hs : Readable codec lmdb s.db) (hw : WriteCondition codec lmdb s w) :
    Readable codec lmdb (s.runWrite codec lmdb w).2 ∧
    ∀ name, stored codec (s.runWrite codec lmdb w).2 name =
      written s.objects name w (stored codec s.db name) := by
  have hreadable := hs
  obtain ⟨records, hrecords, hencoded⟩ := hs
  cases w with
  | insert username object =>
    obtain ⟨bytes, hbytes, htakes⟩ := hw
    have hkey : (DbKey.text username).process = some [username] := process_plain hplain
    have hopen : s.db.openNamespace lmdb userDb = some s.db := by
      rw [Database.openNamespace, hrecords]
    have hrun : s.runWrite codec lmdb (.insert username object) =
        s.db.insertRecord codec lmdb userDb username
          (.dict ((objectAt s.objects username object).getD [])) :=
      DbCall.insert_eq hkey hopen rfl
    have hinsert := Database.insertRecord_eq codec lmdb
      (v := .dict ((objectAt s.objects username object).getD [])) (by intro h; cases h)
      userDb username s.db
    rw [hrun, hinsert]
    simp only [hbytes, htakes, if_true]
    refine ⟨readable_put hreadable hbytes htakes, fun name => ?_⟩
    rw [stored_put, decodeValue_encodeValue hbytes, written_insert]
  | delete username =>
    have hkey : (DbKey.text username).process = some [username] := process_plain hplain
    cases hget : s.db.get₂ userDb username with
    | none =>
      have hrecord : s.db.getRecord codec userDb username = .error .notFound := by
        rw [Database.getRecord, hget]
      have hrun : s.runWrite codec lmdb (.delete username) = (.error .notFound, s.db) := by
        simp only [AuthState.runWrite, DbCall.run, Database.deleteItem, hkey, hrecord]
      rw [hrun]
      refine ⟨hreadable, fun name => ?_⟩
      rw [written_delete]
      split
      · rename_i hname
        rw [hname, stored, hget]
        rfl
      · rfl
    | some bytes =>
      obtain ⟨v, hv⟩ : ∃ v, encodeValue codec v = some bytes := by
        rw [Table.get₂, hrecords] at hget
        exact (hencoded username bytes hget).2
      have hrecord : s.db.getRecord codec userDb username = .ok v := by
        simp only [Database.getRecord, hget, decodeValue_encodeValue hv]
      have hrun : s.runWrite codec lmdb (.delete username) =
          (.ok (), s.db.removeRecord userDb username false) := by
        simp only [AuthState.runWrite, DbCall.run, Database.deleteItem, hkey, hrecord]
      rw [hrun]
      refine ⟨readable_removeRecord hreadable username, fun name => ?_⟩
      rw [written_delete]
      exact stored_removeRecord s.db username name false

end FlsunT1.Moonraker
