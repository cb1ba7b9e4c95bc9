import Turnstile.Json.Value
import Turnstile.Json.Token

/-! Reading a whole JSON text into a value. Tokens are taken one at a time against the stack of
open lists and objects, whose depth may be bounded. Of members with one name the last stays, in
the place of the first. -/

namespace Turnstile.Json.Value

/-! ## Open lists and objects -/

/-- What an open list or object holds so far, the list's items last first. -/
inductive Frame where
  | items (seen : List Value)
  /-- `name` is that of the member whose value is being read. -/
  | members (seen : List (String × Value)) (name : String)

/-- What the next token may be. -/
inductive Place where
  | value
  | firstItem
  | firstName
  | name
  | colon
  /-- A value has just been completed. -/
  | done (v : Value)

def putMember (name : String) (v : Value) : List (String × Value) → List (String × Value)
  | [] => [(name, v)]
  | (n, w) :: rest => if n = name then (n, v) :: rest else (n, w) :: putMember name v rest

/-- A value that is complete as soon as its token is read. -/
def scalar? : Token → Option Value
  | .null => some .null
  | .bool b => some (.bool b)
  | .num n => if n.tooLarge then none else some (.num n)
  | .str text => text.map .str
  | _ => none

/-! ## Reading -/

/-- The place and stack after one token. -/
def advance (limit : Nat) (place : Place) (stack : List Frame) (token : Token) :
    Option (Place × List Frame) :=
  match place, token, stack with
  | .firstItem, .closeArray, .items _ :: stack => some (.done (.arr []), stack)
  | .firstName, .closeObject, .members _ _ :: stack => some (.done (.obj []), stack)
  | .firstName, .str (some name), .members seen _ :: stack
  | .name, .str (some name), .members seen _ :: stack =>
    some (.colon, .members seen name :: stack)
  | .colon, .colon, stack => some (.value, stack)
  | .done v, .comma, .items seen :: stack => some (.value, .items (v :: seen) :: stack)
  | .done v, .closeArray, .items seen :: stack => some (.done (.arr (v :: seen).reverse), stack)
  | .done v, .comma, .members seen name :: stack =>
    some (.name, .members (putMember name v seen) name :: stack)
  | .done v, .closeObject, .members seen name :: stack =>
    some (.done (.obj (putMember name v seen)), stack)
  | .value, .openArray, stack | .firstItem, .openArray, stack =>
    if stack.length + 1 < limit then some (.firstItem, .items [] :: stack) else none
  | .value, .openObject, stack | .firstItem, .openObject, stack =>
    if stack.length + 1 < limit then some (.firstName, .members [] "" :: stack) else none
  | .value, token, stack | .firstItem, token, stack =>
    (scalar? token).map fun v => (.done v, stack)
  | _, _, _ => none

def readFrom (limit : Nat) (place : Place) (stack : List Frame) : List Token → Option Value
  | [] =>
    match place, stack with
    | .done v, [] => some v
    | _, _ => none
  | token :: rest =>
    match advance limit place stack token with
    | some (place, stack) => readFrom limit place stack rest
    | none => none

/-- The value that the bytes spell, if lists and objects are nested less than `limit` deep. -/
def read? (limit : Nat) (bytes : List UInt8) : Option Value :=
  readFrom limit .value [] (Token.ofBytes bytes)

end Turnstile.Json.Value
