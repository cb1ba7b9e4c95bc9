import Turnstile.Http.Problem
import Turnstile.Password.Hasher
import Turnstile.Store.File

/-! What requests are answered against. The service holds what never changes, the world what
requests change, and a draw what one request gets from outside: the moment and fresh random
texts. -/

namespace Turnstile

structure World where
  store : Store
  files : FileTree
deriving DecidableEq

structure Service where
  hasher : Hasher
  /-- Save after each request that counted as a use. -/
  saveOnUse : Bool

structure Draw where
  now : Moment
  userId : String
  keyId : String
  credential : String
  salt : List UInt8
  /-- Makes the name of a temporary file unused. -/
  tag : String
  requestId : String

/-- A step of a request. What it did to the world stays when it fails. -/
abbrev Handler (α : Type) := ExceptT Http.Problem (StateM World) α

namespace Handler

def fail (p : Http.Problem) : Handler α := throw p

/-- An operation of the store; `explain` words its failure. -/
def onStoreOr (explain : StoreError → Http.Problem) (op : Store → Outcome α) : Handler α :=
  fun w =>
    match op w.store with
    | (.ok a, store) => (.ok a, { w with store })
    | (.error e, store) => (.error (explain e), { w with store })

def onStore (op : Store → Outcome α) : Handler α := onStoreOr .ofStore op

/-- A question to the store. -/
def ask (question : Store → α) : Handler α := fun w => (.ok (question w.store), w)

end Handler

namespace World

/-- Saves the store; a store without a file has nothing to do. -/
def persist (w : World) (draw : Draw) : Except StoreError Unit × World :=
  match w.store.path with
  | none => (.ok (), w)
  | some _ =>
    let (answer, files) := w.store.save w.files draw.now draw.tag
    (answer, { w with files })

end World

namespace Handler

def persist (draw : Draw) : Handler Unit := fun w =>
  match w.persist draw with
  | (.ok (), w) => (.ok (), w)
  | (.error e, w) => (.error (.ofStore e), w)

end Handler

end Turnstile
