/-
  Moonraker/Authorization.lean --- the users (moonraker/components/authorization.py).

  The users are dictionaries in memory.  A request changes them and issues writes of their
  records without waiting for them; a write stores the dictionary as it is when the write runs.
-/
import FlsunT1.Library.Run
import FlsunT1.Moonraker.DatabaseAlgebra

set_option autoImplicit false

namespace FlsunT1.Moonraker

open Library

variable {F : Type}

/-! ## The namespace of the users -/

/-- `wrap_namespace('authorized_users')` -/
def userDb : String := "authorized_users"

namespace Database

/-- `as_dict`, which raises an exception at a record that is not decoded. -/
def asDict (codec : RecordCodec F) (ns : String) (db : Database) :
    Option (Table String (Value F)) :=
  (db.get ns).bind (Table.mapM fun _ bytes => decodeValue codec bytes)

/-- `_sync_ns_impl`.  A record that has its value already is put again, which does not change
what is read. -/
def syncNamespace (codec : RecordCodec F) (env : Lmdb) (ns : String)
    (value : Table String (Value F)) (db : Database) : Option Database := do
  let records ← value.mapM fun key v => do
    let bytes ← encodeValue codec v
    if env.takes key bytes then some bytes else none
  if value.keys = ∅ then none else some (db.set ns records)

end Database

/-! ## Users -/

/-- The fields of a user. -/
abbrev UserInfo (F : Type) := List (String × Value F)

def apiUser : String := "_API_KEY_USER_"

def reservedUsers : List String := [apiUser, "_TRUSTED_USER_"]

/-- What the requests use of the cryptographic libraries: the hash of a password with a salt,
if the salt is one, and whether a private key is loaded from a secret. -/
structure AuthEnv (F : Type) where
  hash : String → Value F → Option String
  validKey : Value F → Bool

/-- `item in user_info` -/
def UserInfo.has (info : UserInfo F) (item : String) : Bool := (info.lookup item).isSome

/-- The fields that a user must have. -/
def requiredFields (username : String) : List String :=
  if username = apiUser then ["username", "api_key", "created_on"]
  else ["username", "password", "salt", "created_on"]

/-- A new API user. -/
def newApiUser (apiKey : Value F) (createdOn : F) : UserInfo F :=
  [("username", .str apiUser), ("api_key", apiKey), ("created_on", .float createdOn)]

/-- `user_info.pop(item, None)` -/
def UserInfo.pop (info : UserInfo F) (item : String) : UserInfo F := info.filter (·.1 ≠ item)

/-- The validation of a user that `__init__` loads: an exception, the removal of the user, or
what becomes of it.  A text or a list has none of the fields. -/
def loadUser (env : AuthEnv F) (createdOn : F) (username : String) :
    Value F → Option (Option (UserInfo F))
  | .dict info =>
    if username = apiUser then
      (info.lookup "api_key").map fun apiKey =>
        some (if (requiredFields username).all (UserInfo.has info) then info else newApiUser apiKey createdOn)
    else if (requiredFields username).all (UserInfo.has info) then
      match info.lookup "jwt_secret" with
      | none => some (some info)
      | some secret =>
        if env.validKey secret && UserInfo.has info "jwk_id" then some (some info)
        else some (some (UserInfo.pop (UserInfo.pop info "jwt_secret") "jwk_id"))
    else some none
  | .str _ | .list _ => if username = apiUser then none else some none
  | .null | .bool _ | .int _ | .float _ => none

/-- The users that `__init__` makes of those in the database. -/
def initUsers (env : AuthEnv F) (apiKey : String) (createdOn : F) (d : Table String (Value F)) :
    Option (Table String (UserInfo F)) := do
  let users ← d.mapM (loadUser env createdOn)
  let users := users.filterMap fun _ info => info
  return match users.get apiUser with
    | none => users.set apiUser (newApiUser (.str apiKey) createdOn)
    | some _ => users

/-- A write that was issued: the dictionary of a user is stored, or a user is deleted. -/
inductive AuthWrite
  | insert (username : String) (object : ℕ)
  | delete (username : String)

def AuthWrite.username : AuthWrite → String
  | .insert username _ => username
  | .delete username => username

/-- `class Authorization`: the dictionaries that were created for each name, those of the
users, and the writes that are not done yet. -/
structure AuthState (F : Type) where
  db : Database
  objects : Table String (List (UserInfo F))
  users : Table String ℕ
  pending : List AuthWrite

/-- A dictionary in memory. -/
def objectAt (objects : Table String (List (UserInfo F))) (username : String) (object : ℕ) :
    Option (UserInfo F) :=
  ((objects.get username).getD [])[object]?

namespace AuthState

variable (codec : RecordCodec F) (lmdb : Lmdb) (env : AuthEnv F)

/-- `self.users.get(username)` -/
def user (s : AuthState F) (username : String) : Option (UserInfo F) :=
  (s.users.get username).bind (objectAt s.objects username)

/-- `__init__`, with a new API key and the time. -/
def start (apiKey : String) (createdOn : F) (db : Database) : Option (AuthState F) := do
  let db ← db.openNamespace lmdb userDb
  let d ← db.asDict codec userDb
  let users ← initUsers env apiKey createdOn d
  let db ← db.syncNamespace codec lmdb userDb (users.filterMap fun _ info => some (.dict info))
  return { db := db, objects := users.filterMap fun _ info => some [info]
           users := users.filterMap fun _ _ => some 0, pending := [] }

/-- `self.users[username] = user_info` with a new dictionary, and `_sync_user`. -/
def addUser (s : AuthState F) (username : String) (info : UserInfo F) : AuthState F :=
  let objects := (s.objects.get username).getD []
  { s with
    objects := s.objects.set username (objects ++ [info])
    users := s.users.set username objects.length
    pending := s.pending ++ [.insert username objects.length] }

/-- A change of the dictionary of a user, and `_sync_user`. -/
def changeUser (s : AuthState F) (username : String) (f : UserInfo F → UserInfo F) :
    AuthState F :=
  match s.users.get username with
  | none => s
  | some object =>
    { s with
      objects := s.objects.set username (((s.objects.get username).getD []).modify object f)
      pending := s.pending ++ [.insert username object] }

end AuthState

/-! ## Requests -/

/-- What is drawn for a login: the salt and the time of a new user, and a private key with the
id of its public one. -/
structure NewUser (env : AuthEnv F) where
  salt : String
  createdOn : F
  secret : String
  jwkId : String
  secret_valid : env.validKey (.str secret) = true

/-- `user_info['jwt_secret']` and `user_info['jwk_id']` -/
def addKey {env : AuthEnv F} (new : NewUser env) (info : UserInfo F) : UserInfo F :=
  Dict.setItem "jwk_id" (.str new.jwkId) (Dict.setItem "jwt_secret" (.str new.secret) info)

/-- The string in a field of a user. -/
def UserInfo.text (info : UserInfo F) (item : String) : Option String :=
  match info.lookup item with
  | some (.str s) => some s
  | _ => none

/-- `user_info.get("source", "moonraker") == source` -/
def UserInfo.hasSource (info : UserInfo F) (source : String) : Bool :=
  match info.lookup "source" with
  | none => source == "moonraker"
  | some (.str s) => source == s
  | some _ => false

/-- The hash of a password with the salt of a user is the one that the user has. -/
def UserInfo.accepts (env : AuthEnv F) (info : UserInfo F) (password : String) : Bool :=
  match (info.lookup "salt").bind (env.hash password), UserInfo.text info "password" with
  | some hashed, some hashed' => hashed == hashed'
  | _, _ => false

/-- The requests, and the next write.  `ldap` is what the LDAP server says, if there is one;
`current` is the user of the connection. -/
inductive AuthEvent (env : AuthEnv F)
  | login (create : Bool) (username password source : String) (ldap : Option Bool)
      (new : NewUser env)
  | logout (current : Option (UserInfo F))
  | resetPassword (current : Option (UserInfo F)) (password newPassword : String)
  | newApiKey (apiKey : String)
  | delete (username : String) (current : Option (UserInfo F))
  | write

namespace AuthState

variable (codec : RecordCodec F) (lmdb : Lmdb) {env : AuthEnv F}

/-- `_login_jwt_user`, with `source` in lower case and its default filled in. -/
def loginJwtUser (s : AuthState F) (create : Bool) (username password source : String)
    (ldap : Option Bool) (new : NewUser env) : AuthState F :=
  if source ≠ "moonraker" ∧ source ≠ "ldap" then s
  else if username ∈ reservedUsers then s
  else if source = "ldap" ∧ (create = true ∨ ldap ≠ some true) then s
  else if create = true ∨ source = "ldap" ∧ s.user username = none then
    match s.user username, env.hash password (.str new.salt) with
    | none, some hashed =>
      (s.addUser username [("username", .str username), ("password", .str hashed),
        ("salt", .str new.salt), ("source", .str source),
        ("created_on", .float new.createdOn)]).changeUser username (addKey new)
    | _, _ => s
  else
    match s.user username with
    | none => s
    | some info =>
      if UserInfo.hasSource info source && UserInfo.accepts env info password && !UserInfo.has info "jwt_secret" then
        s.changeUser username (addKey new)
      else s

/-- `_handle_logout` -/
def handleLogout (s : AuthState F) (current : Option (UserInfo F)) : AuthState F :=
  match current.bind (UserInfo.text · "username") with
  | none => s
  | some username =>
    if username ∈ reservedUsers then s
    else s.changeUser username fun info => UserInfo.pop (UserInfo.pop info "jwt_secret") "jwk_id"

/-- `_handle_password_reset` -/
def handlePasswordReset (env : AuthEnv F) (s : AuthState F) (current : Option (UserInfo F))
    (password newPassword : String) : AuthState F :=
  match current with
  | none => s
  | some info =>
    match UserInfo.text info "username", (info.lookup "salt").bind (env.hash newPassword) with
    | some username, some hashed =>
      if UserInfo.hasSource info "ldap" || decide (username ∈ reservedUsers) ||
          !UserInfo.accepts env info password then s
      else s.changeUser username (Dict.setItem "password" (.str hashed))
    | _, _ => s

/-- `_delete_jwt_user` -/
def deleteJwtUser (s : AuthState F) (username : String) (current : Option (UserInfo F)) :
    AuthState F :=
  if current.bind (UserInfo.text · "username") = some username then s
  else if username ∈ reservedUsers then s
  else
    match s.users.get username with
    | none => s
    | some _ =>
      { s with users := s.users.erase username, pending := s.pending ++ [.delete username] }

/-- What the job of a write does. -/
def runWrite (s : AuthState F) (w : AuthWrite) : Except DatabaseError Unit × Database :=
  match w with
  | .insert username object =>
    DbCall.run codec lmdb userDb (.text username)
      (.insert (.dict ((objectAt s.objects username object).getD []))) s.db
  | .delete username => DbCall.run codec lmdb userDb (.text username) (.delete false) s.db

/-- A request, or the first write that is pending, of which nobody sees whether it fails. -/
def step (s : AuthState F) : AuthEvent env → Option (AuthState F)
  | .login create username password source ldap new =>
    some (s.loginJwtUser create username password source ldap new)
  | .logout current => some (s.handleLogout current)
  | .resetPassword current password newPassword =>
    some (s.handlePasswordReset env current password newPassword)
  | .newApiKey apiKey => some (s.changeUser apiUser (Dict.setItem "api_key" (.str apiKey)))
  | .delete username current => some (s.deleteJwtUser username current)
  | .write =>
    match s.pending with
    | [] => none
    | w :: pending => some { s with db := (s.runWrite codec lmdb w).2, pending := pending }

end AuthState

end FlsunT1.Moonraker
