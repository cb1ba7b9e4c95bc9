import Turnstile.Service.World
import Turnstile.Store.Users

/-! Who is calling. Every key that passes the access check may ask about itself; administration is
for keys whose user is an owner and not disabled. -/

namespace Turnstile.Handler

open Http (Problem Request)

/-- The grant of a key that passes the access check. -/
def requireKey (r : Request) : Handler Grant := do
  match ← ask (·.checkAccess r.carrier) with
  | .ok grant => return grant
  | .error e => fail (.ofAccess e)

def ownerOf? (s : Store) (k : ApiKey) : Option User :=
  if k.userId.isEmpty then none
  else (s.findUser? k.userId).filter fun u => !u.disabled && u.role.isOwner

def requireOwner (r : Request) : Handler User := do
  let grant ← requireKey r
  match ← ask (ownerOf? · grant.key) with
  | some user => return user
  | none => fail (.forbidden "Owner access required")

end Turnstile.Handler
