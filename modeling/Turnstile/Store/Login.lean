import Turnstile.Store.Users
import Turnstile.Password.Hasher

/-! Password hashing and login. A failed login costs one verification whether or not the name is
known: where no user's hash applies, a decoy hash is checked, which is made at most once. -/

namespace Turnstile.Store

/-- What the decoy hash is made from. -/
def decoyPassword : String := "keygate-unknown-user"

def hashPassword (s : Store) (hasher : Hasher) (salt : List UInt8) (password : String) :
    Outcome String :=
  (hasher.hash salt password, { s with tally.hashed := s.tally.hashed + 1 })

def verifyPassword (s : Store) (hasher : Hasher) (password hash : String) : Bool × Store :=
  (hasher.verify password hash, { s with tally.verified := s.tally.verified + 1 })

/-- The decoy hash; empty if it cannot be made. -/
def withDecoy (s : Store) (hasher : Hasher) (salt : List UInt8) : String × Store :=
  match s.decoy with
  | some hash => (hash, s)
  | none =>
    let (made, s) := s.hashPassword hasher salt decoyPassword
    let hash := match made with
      | .ok hash => hash
      | .error _ => ""
    (hash, { s with decoy := some hash })

/-- The user of that name, if a password could be accepted for it. -/
def loginCandidate? (s : Store) (username : String) : Option User :=
  (s.findUserByName? username).filter fun u => !u.disabled && !u.passwordHash.isEmpty

/-- An unknown name, a disabled user and a wrong password all fail in the same way. -/
def authenticate (s : Store) (hasher : Hasher) (salt : List UInt8) (username password : String) :
    Outcome User :=
  match s.loginCandidate? username with
  | some user =>
    let (accepted, s) := s.verifyPassword hasher password user.passwordHash
    (if accepted then .ok user else .error .invalidCredentials, s)
  | none =>
    let (decoy, s) := s.withDecoy hasher salt
    let (_, s) := s.verifyPassword hasher password decoy
    (.error .invalidCredentials, s)

end Turnstile.Store
