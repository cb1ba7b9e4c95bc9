import Turnstile.Text.Base64

/-! Texts made from random bytes: the ids of records and the credentials of keys. The digits are
those of base64 with `-` and `_` in the last two places, so such a text can stand in a path or a
query as it is. -/

namespace Turnstile.Identity

def urlDigit (c : Char) : Char := if c = '+' then '-' else if c = '/' then '_' else c

def token (random : List UInt8) : String := String.ofList ((Base64.encode random).map urlDigit)

/-- An id such as `usr_` or `key_` with twelve bytes after it. -/
def recordId (kind : String) (random : List UInt8) : String := kind ++ "_" ++ token random

def recordIdBytes : Nat := 12

/-- A credential: a stem and twenty-four bytes. -/
def credential (stem : String) (random : List UInt8) : String := stem ++ token random

def credentialBytes : Nat := 24

/-- The stem of credentials that nobody chose a stem for. -/
def credentialStem : String := "kg-"

end Turnstile.Identity
