import Turnstile.Record.RecordSet
import Turnstile.Store.Error
import Turnstile.Store.InFlight

/-! The state of a store: its records, the requests in flight, the path of its file, and what it
remembers about password hashing. Every operation gives its answer together with the state after
it, also when it fails. -/

namespace Turnstile

/-- How often the password hasher was asked. -/
structure HashTally where
  hashed : Nat
  verified : Nat
deriving DecidableEq

structure Store where
  /-- The backing file; `none` for a store in memory. -/
  path : Option String
  records : RecordSet
  inFlight : InFlight
  /-- The hash that is checked when no user's hash applies, once it has been made. -/
  decoy : Option String
  tally : HashTally
deriving DecidableEq

/-- An answer and the state after it. -/
abbrev Outcome (α : Type) := Except StoreError α × Store

namespace Store

/-- A path without the blanks around it. -/
def normalPath (path : String) : String := Text.trim path

/-- An empty store. A blank path is kept as an empty one here, while `setPath` drops it. -/
def new (path : Option String) (now : Moment) : Store :=
  ⟨path.map normalPath, .empty now, [], none, ⟨0, 0⟩⟩

/-- A blank path means no file. -/
def setPath (s : Store) (path : String) : Store :=
  let path := normalPath path
  { s with path := if path.isEmpty then none else some path }

/-! ## Parts of the state -/

def users (s : Store) : List User := s.records.users

def apiKeys (s : Store) : List ApiKey := s.records.apiKeys

def withUsers (s : Store) (users : List User) : Store :=
  { s with records := { s.records with users } }

def withApiKeys (s : Store) (apiKeys : List ApiKey) : Store :=
  { s with records := { s.records with apiKeys } }

/-- The numbers of users and of keys. -/
def counts (s : Store) : Nat × Nat := (s.users.length, s.apiKeys.length)

/-- The list with `a` in the place of the first item that satisfies the test. -/
def replaceFirst (test : α → Bool) (a : α) : List α → List α
  | [] => []
  | b :: rest => if test b then a :: rest else b :: replaceFirst test a rest

end Store

end Turnstile
