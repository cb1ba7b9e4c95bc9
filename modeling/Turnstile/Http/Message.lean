import Turnstile.Access.Extraction
import Turnstile.Http.MediaType
import Turnstile.Http.Query
import Turnstile.Http.Uri
import Turnstile.Json.Value

/-! Requests and responses. Header names are kept in lower case, so they are found in any case;
header values are bytes and count as text only where they are visible. -/

namespace Turnstile.Http

/-! ## Requests -/

structure Header where
  name : String
  value : List UInt8
deriving DecidableEq

/-- Why a request cannot be made of its parts. -/
inductive Unusable where
  | method
  | uri
  | headerName
  | headerValue
deriving DecidableEq

structure Request where
  method : String
  uri : Uri
  headers : List Header
  body : List UInt8
deriving DecidableEq

def isToken (s : String) : Bool := !s.isEmpty && s.toList.all MediaType.isToken

def nameBound : Nat := 65535

namespace Header

def name? (s : String) : Option String :=
  if isToken s && s.length ≤ nameBound then some (Text.asciiLower s) else none

/-- No control characters except tabs. -/
def isValue (bytes : List UInt8) : Bool := bytes.all fun b => (32 ≤ b && b != 127) || b == 9

def of (name : String) (value : List UInt8) : Except Unusable Header :=
  match name? name with
  | none => .error .headerName
  | some name => if isValue value then .ok ⟨name, value⟩ else .error .headerValue

/-- The value as text: visible ASCII characters, blanks and tabs. -/
def text? (h : Header) : Option String :=
  if h.value.all fun b => (32 ≤ b && b < 127) || b == 9 then
    some (String.ofList (h.value.map fun b => Char.ofNat b.toNat))
  else none

end Header

namespace Request

/-- The parts are checked in their order in the request. -/
def build (method uri : String) (headers : List (String × List UInt8)) (body : List UInt8) :
    Except Unusable Request := do
  if !isToken method then .error .method
  match Uri.parse? uri with
  | none => .error .uri
  | some uri =>
    let headers ← headers.mapM fun (name, value) => Header.of name value
    return ⟨method, uri, headers, body⟩

/-- The text of the first header of that name. -/
def header? (r : Request) (name : String) : Option String :=
  (r.headers.find? (·.name == Text.asciiLower name)).bind Header.text?

def carrier (r : Request) : Carrier where
  header name := r.header? name
  query name := r.uri.query.bind (Query.value? · name)

/-- The first content type says JSON. -/
def saysJson (r : Request) : Bool := (r.header? "content-type").any MediaType.isJson

end Request

/-! ## Responses -/

inductive Body where
  | none
  | json (v : Json.Value)
  | text (s : String)

structure Response where
  status : Nat
  contentType : Option String
  /-- The methods that the path allows, where the one asked for is not. -/
  allow : Option String
  body : Body

namespace Response

def empty (status : Nat) : Response := ⟨status, none, none, .none⟩

def json (status : Nat) (v : Json.Value) : Response :=
  ⟨status, some "application/json", none, .json v⟩

def text (status : Nat) (s : String) : Response :=
  ⟨status, some "text/plain; charset=utf-8", none, .text s⟩

def withoutBody (r : Response) : Response := { r with body := .none }

/-- The request was served: it counts as a use. -/
def succeeded (r : Response) : Bool := r.status < 400

end Response

end Turnstile.Http
