import Turnstile.Service.Caller
import Turnstile.Service.JsonBody
import Turnstile.Service.View
import Turnstile.Store.Admission
import Turnstile.Store.Login

/-! What users and key holders can ask about themselves. -/

namespace Turnstile.Portal

open Http (Request Response)
open Json (Decoder Value)

/-! ## Login -/

structure LoginDraft where
  username : Option String := none
  password : Option String := none

/-- Name and password. -/
def loginDecoder : Decoder (String × String) :=
  Decoder.record
    [.of "username" Decoder.text (·.username) (fun d a => { d with username := some a }) false,
     .of "password" Decoder.text (·.password) (fun d a => { d with password := some a }) false]
    ({} : LoginDraft)
    fun d => do return (← d.username, ← d.password)

/-- The user and the user's keys. -/
def login (service : Service) (draw : Draw) (r : Request) : Handler Response := do
  let (username, password) ← Handler.jsonBody loginDecoder r
  let user ← Handler.onStore (·.authenticate service.hasher draw.salt username password)
  let keys ← Handler.ask (·.keysOfUser user.id)
  return .json 200 (.obj [("user", user.view), ("api_keys", .arr (keys.map ApiKey.view))])

/-! ## The calling key -/

def me (r : Request) : Handler Response := do
  let grant ← Handler.requireKey r
  let user ← Handler.ask (·.findUser? grant.key.userId)
  return .json 200 (.obj (("key", grant.key.view) ::
    user.toList.map fun u => ("user", u.view)))

/-- The keys that a report for this key is about: those of its owner, or itself. -/
def reported (s : Store) (k : ApiKey) : List ApiKey :=
  if k.userId.isEmpty then [k] else s.keysOfUser k.userId

def usageOf (s : Store) (keys : List ApiKey) : List Usage :=
  keys.map fun k => .of k (s.inFlightOf k.id)

def usage (r : Request) : Handler Response := do
  let grant ← Handler.requireKey r
  let report ← Handler.ask fun s => usageOf s (reported s grant.key)
  return .json 200 (.obj [("usage", .arr (report.map Usage.view))])

end Turnstile.Portal
