import Turnstile.Store.Basic
import Turnstile.Text.Utf8

/-! The keys of a store. Credentials are unique and are compared byte by byte; ids are looked up
without the blanks around them, except by `resetUsage`, which takes an id as it stands. -/

namespace Turnstile

/-- Equal texts. Of two texts of one length every byte is looked at, wherever they first differ. -/
def sameCredential (a b : String) : Bool :=
  let xs := Utf8.encode a
  let ys := Utf8.encode b
  xs.length == ys.length && (xs.zip ys).foldl (fun acc p => acc ||| (p.1 ^^^ p.2)) 0 == 0

namespace Store

/-- Another key than the one with this id has the credential; a new key differs from all. -/
def credentialTaken (s : Store) (id credential : String) : Bool :=
  s.apiKeys.any fun k => (id.isEmpty || k.id != id) && k.credential == credential

/-! ## Questions -/

def keyWithCredential? (s : Store) (credential : String) : Option ApiKey :=
  s.apiKeys.find? fun k => sameCredential k.credential credential

def keyWithId? (s : Store) (id : String) : Option ApiKey := s.apiKeys.find? (·.id == id)

def findKey? (s : Store) (credential : String) : Option ApiKey :=
  let credential := Text.trim credential
  if credential.isEmpty then none else s.keyWithCredential? credential

def findKeyById? (s : Store) (id : String) : Option ApiKey :=
  let id := Text.trim id
  if id.isEmpty then none else s.keyWithId? id

/-- The keys of an owner; none for a blank id. -/
def keysOfUser (s : Store) (userId : String) : List ApiKey :=
  let userId := Text.trim userId
  if userId.isEmpty then [] else s.apiKeys.filter (·.userId == userId)

/-! ## Changes -/

/-- Stores a key under its id. An empty id is replaced by `freshId`, and the key is then created
now; an id that no key has is kept and the key appended. -/
def upsertKey (s : Store) (freshId : String) (now : Moment) (key : ApiKey) : Outcome ApiKey :=
  match checkCredential key.credential with
  | .error refusal => (.error (.ofRefusal refusal), s)
  | .ok () =>
    if s.credentialTaken key.id key.credential then (.error .duplicateApiKey, s)
    else if key.isNew then
      let key := { key with id := freshId, createdAt := now }
      (.ok key, s.withApiKeys (s.apiKeys ++ [key]))
    else if s.apiKeys.any (·.id == key.id) then
      (.ok key, s.withApiKeys (replaceFirst (·.id == key.id) key s.apiKeys))
    else (.ok key, s.withApiKeys (s.apiKeys ++ [key]))

/-- Changes the key with this id; the changed credential is checked like a new one. -/
def updateKey (s : Store) (id : String) (patch : ApiKey → ApiKey) : Outcome ApiKey :=
  let id := Text.trim id
  match s.keyWithId? id with
  | none => (.error .keyNotFound, s)
  | some found =>
    let key := patch found
    match checkCredential key.credential with
    | .error refusal => (.error (.ofRefusal refusal), s)
    | .ok () =>
      if s.apiKeys.any fun k => k.id != id && k.credential == key.credential then
        (.error .duplicateApiKey, s)
      else (.ok key, s.withApiKeys (replaceFirst (·.id == id) key s.apiKeys))

/-- Removes every key with this id and forgets its requests in flight. -/
def deleteKey (s : Store) (id : String) : Outcome Unit :=
  let id := Text.trim id
  if id.isEmpty then (.error .keyNotFound, s)
  else if s.apiKeys.any (·.id == id) then
    (.ok (), { s.withApiKeys (s.apiKeys.filter (·.id != id)) with
      inFlight := s.inFlight.remove id })
  else (.error .keyNotFound, s)

/-- Takes the used count back to zero. -/
def resetUsage (s : Store) (id : String) : Outcome ApiKey :=
  match s.keyWithId? id with
  | none => (.error .keyNotFound, s)
  | some found =>
    let key := found.resetUsage
    (.ok key, s.withApiKeys (replaceFirst (·.id == id) key s.apiKeys))

end Store

end Turnstile
