import Turnstile.Files.Path
import Turnstile.Service.Access
import Turnstile.Service.Admin
import Turnstile.Service.Health
import Turnstile.Service.Log

/-! Which path and method ask for what. A path that no pattern matches is not found; a method that
the pattern does not know is not allowed, which only the gate can forestall. `HEAD` asks for what
`GET` asks for and gets no body. -/

namespace Turnstile

open Http (Problem Request Response)

/-- What can be asked for; an id stands in the path. -/
inductive Action where
  | health
  | ready
  | live
  | checkAccess
  | login
  | me
  | portalUsage
  | state
  | usage
  | listUsers
  | createUser
  | getUser
  | updateUser
  | deleteUser
  | listKeys
  | createKey
  | getKey
  | updateKey
  | deleteKey
  | resetUsage
  | release
deriving DecidableEq

/-! ## Patterns -/

inductive Piece where
  | literal (text : String)
  /-- Any piece that is not empty. -/
  | id (name : String)
deriving DecidableEq

structure Route where
  pieces : List Piece
  /-- Methods and actions, in the order in which they are told. -/
  actions : List (String × Action)
deriving DecidableEq

namespace Route

def pattern (r : Route) : String :=
  String.join (r.pieces.map fun
    | .literal text => "/" ++ text
    | .id name => "/\x7b" ++ name ++ "\x7d")

/-- The ids in the path, each with its name; `none` if the path does not match. -/
def matchPieces : List Piece → List String → Option (List (String × String))
  | [], [] => some []
  | .literal text :: pieces, s :: path =>
    if text == s then matchPieces pieces path else none
  | .id name :: pieces, s :: path =>
    if s.isEmpty then none else (matchPieces pieces path).map ((name, s) :: ·)
  | _, _ => none

def find? (path : String) (r : Route) : Option (List (String × String)) :=
  match Path.pieces path with
  | "" :: rest => matchPieces r.pieces rest
  | _ => none

def action? (r : Route) (method : String) : Option Action :=
  r.actions.lookup (if method == "HEAD" then "GET" else method)

/-- All below `v1` stands behind the gate, whatever the method. -/
def isGated (r : Route) : Bool := r.pieces.head? == some (.literal "v1")

/-- `GET` implies `HEAD`. -/
def allowed (r : Route) : String :=
  ",".intercalate (r.actions.flatMap fun (method, _) =>
    if method == "GET" then ["GET", "HEAD"] else [method])

end Route

def routes : List Route :=
  let admin (pieces : List Piece) : List Piece := .literal "admin" :: pieces
  let key : List Piece := admin [.literal "api-keys", .id "key_id"]
  [⟨[.literal "health"], [("GET", .health)]⟩,
   ⟨[.literal "ready"], [("GET", .ready)]⟩,
   ⟨[.literal "live"], [("GET", .live)]⟩,
   ⟨[.literal "v1", .literal "access"], [("GET", .checkAccess), ("POST", .checkAccess)]⟩,
   ⟨[.literal "portal", .literal "login"], [("POST", .login)]⟩,
   ⟨[.literal "portal", .literal "me"], [("GET", .me)]⟩,
   ⟨[.literal "portal", .literal "usage"], [("GET", .portalUsage)]⟩,
   ⟨admin [.literal "state"], [("GET", .state)]⟩,
   ⟨admin [.literal "usage"], [("GET", .usage)]⟩,
   ⟨admin [.literal "users"], [("GET", .listUsers), ("POST", .createUser)]⟩,
   ⟨admin [.literal "users", .id "user_id"],
     [("GET", .getUser), ("PUT", .updateUser), ("DELETE", .deleteUser)]⟩,
   ⟨admin [.literal "api-keys"], [("GET", .listKeys), ("POST", .createKey)]⟩,
   ⟨key, [("GET", .getKey), ("PUT", .updateKey), ("DELETE", .deleteKey)]⟩,
   ⟨key ++ [.literal "reset-usage"], [("POST", .resetUsage)]⟩,
   ⟨key ++ [.literal "release"], [("POST", .release)]⟩]

/-- The route of a path and the ids in the path. -/
def findRoute (path : String) : Option (Route × List (String × String)) :=
  routes.findSome? fun r => (r.find? path).map (r, ·)

/-! ## Actions -/

/-- The first id of the path, decoded. One that spells no text is refused, in plain words. -/
def withId (ids : List (String × String)) (act : String → Handler Response) : Handler Response :=
  match ids with
  | (name, raw) :: _ =>
    match Percent.segmentText? (Utf8.encode raw) with
    | some id => act id
    | none =>
      let mark := String.singleton (Char.ofNat 0x60)
      return .text 400 ("Invalid URL: Invalid UTF-8 in " ++ mark ++ name ++ mark)
  | [] => return .empty 404

/-- An owner's action: the caller is checked before the path and the body are read. -/
def asOwner (r : Request) (act : Handler Response) : Handler Response := do
  let _ ← Handler.requireOwner r
  act

/-- Enters the gate, answers, and leaves the gate. -/
def throughGate (service : Service) (draw : Draw) (r : Request)
    (answer : Grant → Response) : Handler Response := do
  let admitted ← Gate.enter r
  let response := answer admitted.grant
  modify (Gate.complete service draw admitted response.succeeded)
  return response

def Action.handler (service : Service) (draw : Draw) (ids : List (String × String))
    (r : Request) : Action → Handler Response
  | .health => return .json 200 Health.healthy
  | .ready => return .json 200 (← Handler.ask Health.readiness)
  | .live => return .empty 200
  | .checkAccess => throughGate service draw r fun grant => .json 200 (Access.report grant)
  | .login => Portal.login service draw r
  | .me => Portal.me r
  | .portalUsage => Portal.usage r
  | .state => asOwner r Admin.state
  | .usage => asOwner r Admin.usage
  | .listUsers => asOwner r Admin.listUsers
  | .createUser => asOwner r (Admin.createUser service draw r)
  | .getUser => asOwner r (withId ids Admin.getUser)
  | .updateUser => asOwner r (withId ids (Admin.updateUser service draw · r))
  | .deleteUser => asOwner r (withId ids (Admin.deleteUser draw))
  | .listKeys => asOwner r Admin.listKeys
  | .createKey => asOwner r (Admin.createKey draw r)
  | .getKey => asOwner r (withId ids Admin.getKey)
  | .updateKey => asOwner r (withId ids (Admin.updateKey draw · r))
  | .deleteKey => asOwner r (withId ids (Admin.deleteKey draw))
  | .resetUsage => asOwner r (withId ids (Admin.resetUsage draw))
  | .release => asOwner r (withId ids Admin.release)

/-- The action of the request's method; another method is refused, behind the gate where there is
one. -/
def Route.handler (service : Service) (draw : Draw) (ids : List (String × String)) (r : Request)
    (route : Route) : Handler Response :=
  match route.action? r.method with
  | some action => action.handler service draw ids r
  | none =>
    if route.isGated then throughGate service draw r fun _ => .empty 405
    else return .empty 405

/-! ## Answers -/

/-- A problem is answered with its error body. -/
def Handler.answer (h : Handler Response) (w : World) : Response × World :=
  match h w with
  | (.ok response, w) => (response, w)
  | (.error problem, w) => (problem.toResponse, w)

def forMethod (method : String) (response : Response) : Response :=
  if method == "HEAD" then response.withoutBody else response

/-- Methods that are allowed are told to a request with another one, however it was answered. -/
def Route.tellAllowed (route : Route) (method : String) (response : Response) : Response :=
  if (route.action? method).isSome then response
  else { response with allow := some route.allowed }

namespace Service

/-- Answers a request from start to end. -/
def handle (service : Service) (draw : Draw) (r : Request) (w : World) : Response × World :=
  match findRoute r.uri.path with
  | none => (.empty 404, w)
  | some (route, ids) =>
    let (response, w) := (route.handler service draw ids r).answer w
    (forMethod r.method (route.tellAllowed r.method response), w)

/-- What the log calls the path of a request. -/
def loggedPath (r : Request) : String :=
  match findRoute r.uri.path with
  | some (route, _) => route.pattern
  | none => r.uri.path

/-- The lines that the request leaves in the log. -/
def log (draw : Draw) (r : Request) (response : Response) : List Log.Event :=
  let path := loggedPath r
  [Log.incoming r path draw.requestId, Log.completed r path draw.requestId response]

end Service

end Turnstile
