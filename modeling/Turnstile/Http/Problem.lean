import Turnstile.Access.Grant
import Turnstile.Http.Message

/-! Error bodies. What went wrong inside the store is not told to callers. -/

namespace Turnstile.Http

inductive ProblemKind where
  | invalidRequest
  | authentication
  | permission
  | notFound
  | rateLimit
  | server
deriving DecidableEq

namespace ProblemKind

def label : ProblemKind → String
  | invalidRequest => "invalid_request_error"
  | authentication => "authentication_error"
  | permission => "permission_error"
  | notFound => "not_found_error"
  | rateLimit => "rate_limit_error"
  | server => "server_error"

end ProblemKind

structure Problem where
  status : Nat
  kind : ProblemKind
  message : String
  param : Option String := none
  code : Option String := none
deriving DecidableEq

namespace Problem

def badRequest (message : String) : Problem := { status := 400, kind := .invalidRequest, message }

def unauthorized (message : String) : Problem := { status := 401, kind := .authentication, message }

def forbidden (message : String) : Problem := { status := 403, kind := .permission, message }

def notFound (message : String) : Problem := { status := 404, kind := .notFound, message }

def rateLimited (message : String) : Problem := { status := 429, kind := .rateLimit, message }

def internal (message : String) : Problem := { status := 500, kind := .server, message }

def withParam (p : Problem) (param : String) : Problem := { p with param := some param }

def withCode (p : Problem) (code : String) : Problem := { p with code := some code }

/-! ## Causes -/

def invalidKey : Problem := (unauthorized "Invalid API key").withCode "invalid_api_key"

def ofStore (e : StoreError) : Problem :=
  match e with
  | .quotaExceeded => (rateLimited e.message).withCode "quota_exceeded"
  | .concurrencyExceeded => (rateLimited e.message).withCode "concurrency_exceeded"
  | .keyNotFound | .keyDisabled => invalidKey
  | .invalidCredentials =>
    (unauthorized "Invalid username or password").withCode "invalid_credentials"
  | .duplicateUsername => (badRequest e.message).withParam "username"
  | .duplicateApiKey => (badRequest e.message).withParam "key"
  | .validation detail => badRequest detail
  | .userNotFound => notFound e.message
  | .configuration _ | .decode _ | .encode _ | .io _ => internal "Internal store error"

def ofAccess : AccessError → Problem
  | .noCredentials =>
    (unauthorized ("API key required. Provide via 'Authorization: Bearer <key>' or " ++
      "'X-API-Key: <key>' header")).withCode "missing_api_key"
  | .invalidCredential => invalidKey

/-! ## Forms -/

def toJson (p : Problem) : Json.Value :=
  let optional (name : String) (value : Option String) :=
    value.toList.map fun s => (name, Json.Value.str s)
  .obj [("error", .obj ([("message", .str p.message), ("type", .str p.kind.label)] ++
    optional "param" p.param ++ optional "code" p.code))]

def toResponse (p : Problem) : Response := .json p.status p.toJson

/-- One line for people. -/
def summary (p : Problem) : String := p.kind.label ++ ": " ++ p.message

end Problem

end Turnstile.Http
