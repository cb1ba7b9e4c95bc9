import Turnstile.Http.Message

/-! What the request log says. Values that carry credentials are left out: of some headers, and of
the query pairs whose decoded name is one that credentials are read from. -/

namespace Turnstile.Log

open Http (Header Request Response)
open Http.Query (rawPairs pairs)

def redacted : String := "[REDACTED]"

/-! ## Query -/

def isSecretParameter (name : String) : Bool := name == "key" || name == "auth_token"

/-- The decoded name of a pair, which is read as a query of its own. -/
def nameOf (pair : List Char) : String :=
  ((pairs (String.ofList pair)).head?.map (·.1)).getD ""

/-- The name stays as it is written. -/
def redactPair (pair : List Char) : String :=
  if isSecretParameter (nameOf pair) then
    String.ofList (Text.splitAt '=' pair).1 ++ "=" ++ redacted
  else String.ofList pair

def redactQuery (query : String) : String :=
  "&".intercalate ((rawPairs query).map redactPair)

/-! ## Headers -/

def isSecretHeader (name : String) : Bool :=
  ["authorization", "proxy-authorization", "x-api-key", "x-goog-api-key", "cookie",
    "set-cookie"].contains name

def isLoggedHeader (name : String) : Bool :=
  ["content-type", "content-length", "accept", "user-agent", "x-request-id", "x-forwarded-for",
    "x-real-ip", "authorization", "x-api-key", "x-goog-api-key"].contains name

def headerText (h : Header) : String :=
  h.name ++ "=" ++ if isSecretHeader h.name then redacted else h.text?.getD "[invalid]"

/-- Headers by name, in the order in which the names first appear. -/
def grouped (headers : List Header) : List Header :=
  ((headers.map (·.name)).eraseDups).flatMap fun name => headers.filter (·.name == name)

def headersText (headers : List Header) : String :=
  ", ".intercalate (((grouped headers).filter (isLoggedHeader ·.name)).map headerText)

/-! ## Events -/

structure Event where
  message : String
  fields : List (String × String)
deriving DecidableEq

/-- The id that the request brings, or the one drawn for it. -/
def requestId (r : Request) (fresh : String) : String := (r.header? "x-request-id").getD fresh

/-- `path` is the pattern that the path matched, or the path. -/
def incoming (r : Request) (path fresh : String) : Event where
  message := "Incoming request"
  fields := [("method", r.method), ("path", path),
    ("query", (r.uri.query.map redactQuery).getD ""), ("request_id", requestId r fresh),
    ("headers", headersText r.headers)]

def completed (r : Request) (path fresh : String) (response : Response) : Event where
  message := "Request completed"
  fields := [("method", r.method), ("path", path), ("status", response.status.repr),
    ("request_id", requestId r fresh)]

end Turnstile.Log
