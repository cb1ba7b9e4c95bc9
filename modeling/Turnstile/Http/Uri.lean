import Turnstile.Text.Utf8

/-! Request targets. A target is a path with an optional query, an absolute address whose path and
query follow its authority, a bare authority, or a star. A fragment is cut off. Characters that
should be percent-encoded are let through in some places, and bytes past ASCII must spell text. -/

namespace Turnstile.Http

structure Uri where
  path : String
  query : Option String
deriving DecidableEq

namespace Uri

/-- The longest target, in bytes. -/
def lengthBound : Nat := 65534

/-! ## Path and query -/

def inPath (b : UInt8) : Bool :=
  b == 0x21 || (0x24 ≤ b && b ≤ 0x3B) || b == 0x3D || (0x40 ≤ b && b ≤ 0x5F) ||
    (0x61 ≤ b && b ≤ 0x7A) || b == 0x7C || b == 0x7E || 0x7F ≤ b ||
    b == 0x22 || b == 0x7B || b == 0x7D

def inQuery (b : UInt8) : Bool :=
  b == 0x21 || (0x24 ≤ b && b ≤ 0x3B) || b == 0x3D || 0x3F ≤ b

def isQuestion (b : UInt8) : Bool := b == 0x3F

/-- A target without its authority; no path before the query means the root. -/
def ofLocal? (bytes : List UInt8) : Option Uri := do
  let bytes := bytes.takeWhile (· != 0x23)
  let path := bytes.takeWhile (!isQuestion ·)
  let rest := bytes.dropWhile (!isQuestion ·)
  if !path.all inPath || !(rest.drop 1).all inQuery then none
  let path ← Utf8.decode? path
  let query ← match rest with
    | [] => some none
    | _ :: query => (Utf8.decode? query).map some
  return ⟨if path.isEmpty then "/" else path, query⟩

/-! ## Scheme and authority -/

def isLetter (b : UInt8) : Bool := (0x41 ≤ b && b ≤ 0x5A) || (0x61 ≤ b && b ≤ 0x7A)

def isDigit (b : UInt8) : Bool := 0x30 ≤ b && b ≤ 0x39

def inScheme (b : UInt8) : Bool :=
  isLetter b || isDigit b || b == 0x2B || b == 0x2D || b == 0x2E || b == 0x7E

def schemeBound : Nat := 64

/-- What follows the scheme and its two slashes: `some none` if there is no scheme, `none` if it is
too long. -/
def afterScheme? (bytes : List UInt8) : Option (Option (List UInt8)) :=
  let scheme := bytes.takeWhile inScheme
  match bytes.drop scheme.length with
  | 0x3A :: 0x2F :: 0x2F :: rest =>
    if schemeBound < scheme.length then none else some (some rest)
  | _ => some none

/-- Marks that an authority may hold besides letters and digits. -/
def inAuthority (b : UInt8) : Bool :=
  isLetter b || isDigit b || [0x21, 0x24, 0x26, 0x27, 0x28, 0x29, 0x2A, 0x2B, 0x2C, 0x2D, 0x2E,
    0x3B, 0x3D, 0x5F, 0x7E].contains b

/-- What has been seen of an authority, since its last `@` where that matters. -/
structure AuthorityScan where
  colons : Nat := 0
  opened : Bool := false
  closed : Bool := false
  percent : Bool := false
  endsInAt : Bool := false

def AuthorityScan.step (s : AuthorityScan) (b : UInt8) : Option AuthorityScan :=
  let s := { s with endsInAt := false }
  if b == 0x3A then if 8 ≤ s.colons then none else some { s with colons := s.colons + 1 }
  else if b == 0x5B then if s.percent || s.opened then none else some { s with opened := true }
  else if b == 0x5D then
    if !s.opened || s.closed then none
    else some { s with closed := true, colons := 0, percent := false }
  else if b == 0x40 then some { s with endsInAt := true, colons := 0, percent := false }
  else if b == 0x25 then some { s with percent := true }
  else if inAuthority b then some s
  else none

/-- At most one colon after the user part and the brackets, brackets in pairs, percent signs in the
user part or brackets only, and something after the user part. -/
def isAuthority (bytes : List UInt8) : Bool :=
  match bytes.foldlM AuthorityScan.step {} with
  | some s => s.opened == s.closed && s.colons ≤ 1 && !s.endsInAt && !s.percent
  | none => false

def endsAuthority (b : UInt8) : Bool := b == 0x2F || b == 0x3F || b == 0x23

/-! ## The whole -/

def parse? (text : String) : Option Uri :=
  let bytes := Utf8.encode text
  if bytes.isEmpty || lengthBound < bytes.length then none
  else if bytes = [0x2A] then some ⟨"*", none⟩
  else if bytes.head? = some 0x2F then ofLocal? bytes
  else match afterScheme? bytes with
    | none => none
    | some none =>
      if isAuthority bytes && !bytes.any endsAuthority then some ⟨"", none⟩ else none
    | some (some rest) =>
      let authority := rest.takeWhile (!endsAuthority ·)
      if authority.isEmpty || !isAuthority authority then none
      else ofLocal? (rest.drop authority.length)

end Uri

end Turnstile.Http
