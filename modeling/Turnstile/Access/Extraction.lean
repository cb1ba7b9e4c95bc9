import Turnstile.Access.Source
import Turnstile.Text.Case
import Turnstile.Text.Split

/-! Finding the credential on a request. The places are tried in a fixed order; values are trimmed
and an empty one counts as absent. -/

namespace Turnstile

/-- The parts of a request that can carry a credential, looked up by the name as it is written
here. Where names are matched in any case, all spellings of a name give the same answer. -/
structure Carrier where
  header : String → Option String
  query : String → Option String

structure Extracted where
  value : String
  source : Source
deriving DecidableEq

namespace Carrier

/-- The trimmed value, if anything is left of it. -/
def nonEmpty? (value : String) : Option String :=
  let cut := Text.trim value
  if cut.isEmpty then none else some cut

/-- A bearer token, or the whole value when its scheme is neither bearer nor basic. -/
def ofAuthorization? (value : String) : Option String :=
  let value := Text.trimStart value
  match Text.splitAt ' ' value.toList with
  | (scheme, some token) =>
    let scheme := String.ofList scheme
    if Text.equalIgnoringAsciiCase scheme "bearer" then nonEmpty? (String.ofList token)
    else if Text.equalIgnoringAsciiCase scheme "basic" then none
    else nonEmpty? value
  | (_, none) => nonEmpty? value

/-- Header names in the order in which they are tried; the last is for carriers that tell
spellings apart. -/
def keyHeaders : List (String × Source) :=
  [("X-Api-Key", .apiKeyHeader), ("X-Goog-Api-Key", .googleHeader), ("X-API-Key", .apiKeyHeader)]

def keyParameters : List (String × Source) := [("key", .queryKey), ("auth_token", .queryToken)]

def firstOf (lookup : String → Option String) (places : List (String × Source)) :
    Option Extracted :=
  places.findSome? fun (name, source) => ((lookup name).bind nonEmpty?).map (⟨·, source⟩)

def extract (c : Carrier) : Option Extracted :=
  match (c.header "Authorization").bind ofAuthorization? with
  | some value => some ⟨value, .authorization⟩
  | none => (firstOf c.header keyHeaders).or (firstOf c.query keyParameters)

end Carrier

end Turnstile
