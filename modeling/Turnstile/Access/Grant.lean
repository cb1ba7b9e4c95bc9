import Turnstile.Access.Extraction
import Turnstile.Store.Keys

/-! The access check in front of admission. An unknown credential, a disabled key and a place that
is not trusted are refused alike, so that a caller cannot tell which of them applied. -/

namespace Turnstile

inductive AccessError where
  | noCredentials
  | invalidCredential
deriving DecidableEq

namespace AccessError

def message : AccessError → String
  | noCredentials => "no credentials supplied"
  | invalidCredential => "invalid credential"

end AccessError

/-- A request that passed the check. -/
structure Grant where
  key : ApiKey
  source : Source
deriving DecidableEq

namespace Grant

/-- What the request is admitted by. -/
def principal (g : Grant) : String := g.key.credential

/-- Label and owner of the key, where they are set. -/
def metadata (g : Grant) : List (String × String) :=
  [("label", g.key.label), ("user_id", g.key.userId)].filter fun m => !m.2.isEmpty

end Grant

namespace Store

def checkAccess (s : Store) (carrier : Carrier) : Except AccessError Grant :=
  match carrier.extract with
  | none => .error .noCredentials
  | some found =>
    match s.findKey? found.value with
    | none => .error .invalidCredential
    | some key =>
      if key.enabled && key.trusts found.source then .ok ⟨key, found.source⟩
      else .error .invalidCredential

end Store

end Turnstile
