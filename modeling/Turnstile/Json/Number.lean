/-! Numbers as JSON writes them: a decimal mantissa and a power of ten. Whether a number was
written with a fraction or an exponent is kept, because a count must be written without. -/

namespace Turnstile.Json

/-- The value is `±mantissa · 10 ^ exponent`. -/
structure Number where
  negative : Bool
  mantissa : Nat
  exponent : Int
  /-- Written as digits only. -/
  whole : Bool
deriving DecidableEq

namespace Number

def ofNat (n : Nat) : Number := ⟨false, n, 0, true⟩

/-- A count: digits only, no sign. -/
def toNat? (n : Number) : Option Nat :=
  if n.whole && !n.negative then some n.mantissa else none

/-- The numbers from which on no finite binary64 is nearest. -/
def binary64Bound : Nat := Nat.pow 2 1024 - Nat.pow 2 970

/-- Past the range of binary64. The number of digits settles all but a few cases, so no large
power is built. -/
def tooLarge (n : Number) : Bool :=
  let places := ((Nat.toDigits 10 n.mantissa).length : Int) + n.exponent
  if n.mantissa = 0 ∨ places < 309 then false
  else if 309 < places then true
  else if 0 ≤ n.exponent then binary64Bound ≤ n.mantissa * Nat.pow 10 n.exponent.toNat
  else binary64Bound * Nat.pow 10 (-n.exponent).toNat ≤ n.mantissa

/-- Digits only for a whole number, else mantissa and exponent. -/
def render (n : Number) : List Char :=
  (if n.negative then ['-'] else []) ++ Nat.toDigits 10 n.mantissa ++
    if n.whole then [] else 'e' :: (if n.exponent < 0 then ['-'] else []) ++
      Nat.toDigits 10 n.exponent.natAbs

end Number

end Turnstile.Json
