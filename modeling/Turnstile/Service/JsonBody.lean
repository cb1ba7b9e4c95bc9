import Turnstile.Json.Decoder
import Turnstile.Service.World

/-! Reading JSON bodies. The content type is looked at first, then the size, then the text; a value
that does not fit is told apart from a text that is no JSON. -/

namespace Turnstile.Http

/-- The largest body, in bytes. -/
def bodyBound : Nat := 2097152

namespace Problem

def unreadable (status : Nat) (message : String) : Problem :=
  { status, kind := .invalidRequest, message, code := some "json_parse_error" }

def noJsonType : Problem :=
  unreadable 415 "Missing Content-Type header. Expected 'application/json'."

def bodyTooLarge : Problem := unreadable 413 "Failed to read request body: length limit exceeded"

def ofFault : Json.Fault → Problem
  | .unfit => unreadable 422 "Invalid JSON data: a field is missing, repeated or of the wrong type"
  | .malformed => unreadable 400 "Invalid JSON syntax: the body is not one JSON value"

end Problem

def Request.readJson (r : Request) (d : Json.Decoder α) : Except Problem α :=
  if !r.saysJson then .error .noJsonType
  else if bodyBound < r.body.length then .error .bodyTooLarge
  else (d.run r.body).mapError .ofFault

end Turnstile.Http

namespace Turnstile.Handler

def jsonBody (d : Json.Decoder α) (r : Http.Request) : Handler α :=
  ExceptT.mk (pure (r.readJson d))

end Turnstile.Handler
