import Turnstile.Store.Basic

/-! The users of a store. Names are unique up to case, and a stored name has no blanks around it;
ids are looked up without the blanks around them. -/

namespace Turnstile.Store

/-- Another user than the one with this id answers to the name; a new user differs from all. -/
def nameTaken (s : Store) (id username : String) : Bool :=
  s.users.any fun u => (id.isEmpty || u.id != id) && sameUsername u.username username

/-! ## Changes -/

/-- Stores a user under its id. An empty id is replaced by `freshId`, and the user is then created
now; an id that no user has is kept and the user appended. -/
def upsertUser (s : Store) (freshId : String) (now : Moment) (given : User) : Outcome User :=
  let user := { given with username := Text.trim given.username }
  match checkUsername user.username with
  | .error refusal => (.error (.ofRefusal refusal), s)
  | .ok () =>
    if s.nameTaken user.id user.username then (.error .duplicateUsername, s)
    else if user.isNew then
      let user := { user with id := freshId, createdAt := now }
      (.ok user, s.withUsers (s.users ++ [user]))
    else if s.users.any (·.id == user.id) then
      (.ok user, s.withUsers (replaceFirst (·.id == user.id) user s.users))
    else (.ok user, s.withUsers (s.users ++ [user]))

/-- Changes the user with this id; the changed name is checked like a new one. -/
def updateUser (s : Store) (id : String) (patch : User → User) : Outcome User :=
  let id := Text.trim id
  match s.users.find? (·.id == id) with
  | none => (.error .userNotFound, s)
  | some found =>
    let patched := patch found
    let user := { patched with username := Text.trim patched.username }
    match checkUsername user.username with
    | .error refusal => (.error (.ofRefusal refusal), s)
    | .ok () =>
      if s.users.any fun u => u.id != id && sameUsername u.username user.username then
        (.error .duplicateUsername, s)
      else (.ok user, s.withUsers (replaceFirst (·.id == id) user s.users))

/-- Removes every user with this id. -/
def deleteUser (s : Store) (id : String) : Outcome Unit :=
  let id := Text.trim id
  if id.isEmpty then (.error .userNotFound, s)
  else if s.users.any (·.id == id) then (.ok (), s.withUsers (s.users.filter (·.id != id)))
  else (.error .userNotFound, s)

/-! ## Questions -/

def findUser? (s : Store) (id : String) : Option User :=
  let id := Text.trim id
  if id.isEmpty then none else s.users.find? (·.id == id)

def findUserByName? (s : Store) (username : String) : Option User :=
  let username := Text.trim username
  if username.isEmpty then none else s.users.find? fun u => sameUsername u.username username

end Turnstile.Store
