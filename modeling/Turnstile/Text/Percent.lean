import Turnstile.Text.Utf8

/-! Percent decoding over bytes: `%` with two hexadecimal digits is one byte, any other `%` stands
for itself. -/

namespace Turnstile.Percent

def hexValue? (b : UInt8) : Option Nat :=
  let n := b.toNat
  if 48 ≤ n ∧ n ≤ 57 then some (n - 48)
  else if 65 ≤ n ∧ n ≤ 70 then some (n - 55)
  else if 97 ≤ n ∧ n ≤ 102 then some (n - 87)
  else none

/-- The byte that two digits after a percent sign stand for. -/
def pair? (high low : UInt8) : Option UInt8 := do
  let h ← hexValue? high
  let l ← hexValue? low
  return (h * 16 + l).toUInt8

def decode : List UInt8 → List UInt8
  | 0x25 :: high :: low :: rest =>
    match pair? high low with
    | some b => b :: decode rest
    | none => 0x25 :: decode (high :: low :: rest)
  | b :: rest => b :: decode rest
  | [] => []
termination_by bytes => bytes.length

/-- A name or value of a form: plus signs are spaces, and a byte sequence that is no text is
replaced, not refused. -/
def formText (bytes : List UInt8) : String :=
  Utf8.decodeLossy (decode (bytes.map fun b => if b = 0x2B then 0x20 else b))

/-- A path segment: plus signs stay, and the bytes must spell a text. -/
def segmentText? (bytes : List UInt8) : Option String := Utf8.decode? (decode bytes)

end Turnstile.Percent
