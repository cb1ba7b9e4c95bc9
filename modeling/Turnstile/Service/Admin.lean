import Turnstile.Service.Portal

/-! Administration by owners. Every answer about a change is given after the store was saved. -/

namespace Turnstile.Admin

open Http (Problem Request Response)
open Json (Decoder Value)

def listed (name : String) (views : List Value) : Response :=
  .json 200 (.obj [(name, .arr views), ("total", .nat views.length)])

/-! ## Users -/

/-- The fields that a request gives; the others stay as they are. -/
structure UserRequest where
  username : Option String := none
  password : Option String := none
  role : Option String := none
  disabled : Option Bool := none
deriving DecidableEq

structure UserDraft where
  username : Option (Option String) := none
  password : Option (Option String) := none
  role : Option (Option String) := none
  disabled : Option (Option Bool) := none

def userDecoder : Decoder UserRequest :=
  Decoder.record
    [.of "username" (.optional .text) (·.username) (fun d a => { d with username := some a }) false,
     .of "password" (.optional .text) (·.password) (fun d a => { d with password := some a }) false,
     .of "role" (.optional .text) (·.role) (fun d a => { d with role := some a }) false,
     .of "disabled" (.optional .bool) (·.disabled) (fun d a => { d with disabled := some a }) false]
    ({} : UserDraft)
    fun d => some ⟨d.username.join, d.password.join, d.role.join, d.disabled.join⟩

def listUsers : Handler Response := do
  return listed "users" ((← Handler.ask (·.users)).map User.view)

def getUser (id : String) : Handler Response := do
  match ← Handler.ask (·.findUser? id) with
  | some user => return .json 200 user.view
  | none => Handler.fail (.ofStore .userNotFound)

def wantedRole (request : UserRequest) : Handler (Option Role) :=
  match request.role with
  | none => return none
  | some text =>
    match Role.parse text with
    | .ok role => return some role
    | .error refusal => Handler.fail (.ofStore (.ofRefusal refusal))

/-- The hash of the password that a request gives. -/
def newHash (service : Service) (draw : Draw) (request : UserRequest) : Handler (Option String) :=
  match request.password with
  | none => return none
  | some password =>
    match checkPassword password with
    | .error refusal => Handler.fail (.ofStore (.ofRefusal refusal))
    | .ok () => do
      return some (← Handler.onStore (·.hashPassword service.hasher draw.salt password))

def createUser (service : Service) (draw : Draw) (r : Request) : Handler Response := do
  let request ← Handler.jsonBody userDecoder r
  match request.username, request.password with
  | none, _ => Handler.fail ((Problem.badRequest "username is required").withParam "username")
  | _, none => Handler.fail ((Problem.badRequest "password is required").withParam "password")
  | some username, some _ =>
    let role ← wantedRole request
    let hash ← newHash service draw request
    let user ← Handler.onStore (·.upsertUser draw.userId draw.now
      { id := "", username, passwordHash := hash.getD "", role := role.getD .user,
        disabled := request.disabled.getD false, createdAt := draw.now })
    Handler.persist draw
    return .json 201 user.view

def patchUser (request : UserRequest) (role : Option Role) (hash : Option String) (u : User) :
    User :=
  { u with
    username := request.username.getD u.username
    role := role.getD u.role
    disabled := request.disabled.getD u.disabled
    passwordHash := hash.getD u.passwordHash }

def updateUser (service : Service) (draw : Draw) (id : String) (r : Request) :
    Handler Response := do
  let request ← Handler.jsonBody userDecoder r
  match ← Handler.ask (·.findUser? id) with
  | none => Handler.fail (.ofStore .userNotFound)
  | some _ =>
    let role ← wantedRole request
    let hash ← newHash service draw request
    let user ← Handler.onStore (·.updateUser id (patchUser request role hash))
    Handler.persist draw
    return .json 200 user.view

/-- Keys of the user stay. -/
def deleteUser (draw : Draw) (id : String) : Handler Response := do
  Handler.onStore (·.deleteUser id)
  Handler.persist draw
  return .empty 204

/-! ## Keys -/

/-- The fields that a request gives; the others stay as they are. -/
structure KeyRequest where
  credential : Option String := none
  label : Option String := none
  userId : Option String := none
  enabled : Option Bool := none
  totalLimit : Option UInt64 := none
  concurrencyLimit : Option UInt32 := none
  compatibilityMode : Option Bool := none

structure KeyDraft where
  credential : Option (Option String) := none
  label : Option (Option String) := none
  userId : Option (Option String) := none
  enabled : Option (Option Bool) := none
  totalLimit : Option (Option UInt64) := none
  concurrencyLimit : Option (Option UInt32) := none
  compatibilityMode : Option (Option Bool) := none

def keyDecoder : Decoder KeyRequest :=
  Decoder.record
    [.of "key" (.optional .text) (·.credential) (fun d a => { d with credential := some a }) false,
     .of "label" (.optional .text) (·.label) (fun d a => { d with label := some a }) false,
     .of "user_id" (.optional .text) (·.userId) (fun d a => { d with userId := some a }) false,
     .of "enabled" (.optional .bool) (·.enabled) (fun d a => { d with enabled := some a }) false,
     .of "total_limit" (.optional .count64) (·.totalLimit)
       (fun d a => { d with totalLimit := some a }) false,
     .of "concurrency_limit" (.optional .count32) (·.concurrencyLimit)
       (fun d a => { d with concurrencyLimit := some a }) false,
     .of "compatibility_mode" (.optional .bool) (·.compatibilityMode)
       (fun d a => { d with compatibilityMode := some a }) false]
    ({} : KeyDraft)
    fun d => some ⟨d.credential.join, d.label.join, d.userId.join, d.enabled.join,
      d.totalLimit.join, d.concurrencyLimit.join, d.compatibilityMode.join⟩

namespace KeyRequest

/-- The changes that the request asks for; credential and owner are taken without the blanks around
them. -/
def edits (q : KeyRequest) : List KeyEdit :=
  (q.credential.toList.map fun s => .credential (Text.trim s)) ++
    q.label.toList.map .label ++
    (q.userId.toList.map fun s => .userId (Text.trim s)) ++
    q.enabled.toList.map .enabled ++
    q.totalLimit.toList.map .totalLimit ++
    q.concurrencyLimit.toList.map .concurrencyLimit ++
    q.compatibilityMode.toList.map .compatibilityMode

end KeyRequest

def noSuchKey (id : String) : Problem := .notFound ("API key '" ++ id ++ "' not found")

/-- An owner who names an unknown key made a mistake and is not a stranger. -/
def explain (id : String) : StoreError → Problem
  | .keyNotFound => noSuchKey id
  | e => .ofStore e

/-- The owner that a request names has to be a user. -/
def checkOwner (request : KeyRequest) : Handler Unit := do
  let id := Text.trim (request.userId.getD "")
  if id.isEmpty then return ()
  match ← Handler.ask (·.findUser? id) with
  | some _ => return ()
  | none => Handler.fail (.ofStore .userNotFound)

def listKeys : Handler Response := do
  return listed "api_keys" ((← Handler.ask (·.apiKeys)).map ApiKey.view)

def findKey (id : String) : Handler ApiKey := do
  match ← Handler.ask (·.findKeyById? id) with
  | some key => return key
  | none => Handler.fail (noSuchKey id)

def getKey (id : String) : Handler Response := do return .json 200 (← findKey id).view

/-- A key without a credential, or with a blank one, gets the one drawn for it. A credential that is
given is taken as it stands, while an update cuts the blanks around it. -/
def createKey (draw : Draw) (r : Request) : Handler Response := do
  let request ← Handler.jsonBody keyDecoder r
  checkOwner request
  let given := request.credential.filter fun s => !Text.blank s
  let blank := ApiKey.fresh (given.getD draw.credential) "" draw.now
  let key := KeyEdit.applyAll { request with credential := none }.edits blank
  let key ← Handler.onStore (·.upsertKey draw.keyId draw.now key)
  Handler.persist draw
  return .json 201 key.view

def updateKey (draw : Draw) (id : String) (r : Request) : Handler Response := do
  let request ← Handler.jsonBody keyDecoder r
  checkOwner request
  let key ← Handler.onStoreOr (explain id) (·.updateKey id (KeyEdit.applyAll request.edits))
  Handler.persist draw
  return .json 200 key.view

def deleteKey (draw : Draw) (id : String) : Handler Response := do
  Handler.onStoreOr (explain id) (·.deleteKey id)
  Handler.persist draw
  return .empty 204

/-! ## Counters and the whole -/

def resetUsage (draw : Draw) (id : String) : Handler Response := do
  let key ← Handler.onStoreOr (explain id) (·.resetUsage id)
  Handler.persist draw
  let inFlight ← Handler.ask (·.inFlightOf key.id)
  return .json 200 (Usage.of key inFlight).view

def release (id : String) : Handler Response := do
  let _ ← findKey id
  let released ← Handler.onStoreOr (explain id) (·.releaseSlots id)
  return .json 200 (.obj [("key_id", .str id), ("released", .nat released.toNat)])

def usage : Handler Response := do
  let report ← Handler.ask fun s => Portal.usageOf s s.apiKeys
  return .json 200 (.obj [("usage", .arr (report.map Usage.view))])

def state : Handler Response := do
  let s ← Handler.ask id
  return .json 200 (.obj ([("version", .nat s.records.version.toNat),
    ("updated_at", .str s.records.updatedAt.toOffset)] ++
    s.path.toList.map (fun path => ("data_path", .str path)) ++
    [("users", .arr (s.users.map User.view)), ("api_keys", .arr (s.apiKeys.map ApiKey.view))]))

end Turnstile.Admin
