import Turnstile.Text.Blank

/-! What a name, a password, a credential and a role text have to satisfy before they are stored.
Each check reports the first rule that is broken: empty, then too long, then a wrong character. -/

namespace Turnstile

/-- Why a text was refused. -/
inductive Refusal where
  | emptyUsername
  | usernameTooLong
  | usernameCharacter (c : Char)
  | emptyPassword
  | unknownRole (given : String)
  | emptyCredential
  | credentialTooLong
  | credentialCharacter (c : Char)
deriving DecidableEq

def usernameBound : Nat := 64

def credentialBound : Nat := 256

namespace Refusal

def message : Refusal → String
  | emptyUsername => "Username cannot be empty"
  | usernameTooLong => "Username exceeds maximum length of " ++ usernameBound.repr ++ " characters"
  | usernameCharacter c => "Username contains invalid character: " ++ Text.refusedForm c
  | emptyPassword => "Password cannot be empty"
  | unknownRole given => "Invalid role '" ++ given ++ "'. Expected 'owner' or 'user'"
  | emptyCredential => "API key cannot be empty"
  | credentialTooLong =>
    "API key exceeds maximum length of " ++ credentialBound.repr ++ " characters"
  | credentialCharacter c =>
    "API key contains invalid character: " ++ Text.refusedForm c ++
      ". Whitespace and control characters are not allowed"

end Refusal

/-- Blanks at the ends do not count; inside a name only control characters are refused. -/
def checkUsername (username : String) : Except Refusal Unit :=
  let cs := (Text.trim username).toList
  if cs.isEmpty then .error .emptyUsername
  else if usernameBound < cs.length then .error .usernameTooLong
  else match cs.find? Text.isControl with
    | some c => .error (.usernameCharacter c)
    | none => .ok ()

def checkPassword (password : String) : Except Refusal Unit :=
  if (Text.trim password).isEmpty then .error .emptyPassword else .ok ()

/-- A credential is taken as it stands: carriers are trimmed, so one with a blank in it could not
be presented. -/
def checkCredential (credential : String) : Except Refusal Unit :=
  let cs := credential.toList
  if cs.isEmpty then .error .emptyCredential
  else if credentialBound < cs.length then .error .credentialTooLong
  else match cs.find? fun c => Text.isBlank c || Text.isControl c with
    | some c => .error (.credentialCharacter c)
    | none => .ok ()

end Turnstile
