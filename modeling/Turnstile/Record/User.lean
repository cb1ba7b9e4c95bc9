import Turnstile.Text.Case
import Turnstile.Record.Rule
import Turnstile.Time.Moment

/-! Users and their roles. The id of a user is empty until the store has assigned one. -/

namespace Turnstile

inductive Role where
  | user
  | owner
deriving DecidableEq

namespace Role

def label : Role → String
  | user => "user"
  | owner => "owner"

def isOwner : Role → Bool
  | owner => true
  | user => false

/-- The role that a stored record names, letter for letter. -/
def ofLabel? (s : String) : Option Role :=
  if s = "user" then some user else if s = "owner" then some owner else none

/-- The role that a caller asks for: blanks and ASCII case do not matter, and no text asks for an
ordinary user. -/
def parse (s : String) : Except Refusal Role :=
  let name := Text.asciiLower (Text.trim s)
  if name = "" then .ok user
  else match ofLabel? name with
    | some role => .ok role
    | none => .error (.unknownRole s)

end Role

structure User where
  id : String
  username : String
  /-- Empty when the user cannot log in. -/
  passwordHash : String
  role : Role
  disabled : Bool
  /-- From the clock or from a text, since nothing else sets it. -/
  createdAt : Moment
deriving DecidableEq

namespace User

def isNew (u : User) : Bool := u.id.isEmpty

end User

/-- Two names that one account may answer to: equal in lower case. -/
def sameUsername (a b : String) : Bool :=
  Text.equalIgnoringAsciiCase a b || Text.toLower a == Text.toLower b

end Turnstile
