import Turnstile.Time.Date

/-! Points of universal time, to the nanosecond. A thousand million nanoseconds or more stand in the
leap second that follows the second, and a point can have one behind any second. -/

namespace Turnstile

def isClock (second nano : Nat) : Bool := second < 86400 && nano < 2000000000

structure Timestamp where
  date : Date
  /-- Seconds since midnight. -/
  second : Nat
  nano : Nat
  valid : isClock second nano = true
deriving DecidableEq

namespace Timestamp

def epoch : Timestamp := ⟨⟨1970, 1, 1, by decide⟩, 0, 0, by decide⟩

def of? (date : Date) (second nano : Nat) : Option Timestamp :=
  if h : isClock second nano = true then some ⟨date, second, nano, h⟩ else none

/-! ## Printing -/

/-- At least `width` digits, zeros in front. -/
def padded (width n : Nat) : String :=
  let digits := Nat.toDigits 10 n
  String.ofList (List.replicate (width - digits.length) '0' ++ digits)

/-- Four digits; a year that needs a sign or more digits carries its sign. -/
def yearText (year : Int) : String :=
  if 0 ≤ year ∧ year ≤ 9999 then padded 4 year.toNat
  else (if year < 0 then "-" else "+") ++ padded 4 year.natAbs

/-- The fewest of no, three, six or nine digits that are exact. -/
def fractionText (nano : Nat) : String :=
  if nano = 0 then ""
  else if nano % 1000000 = 0 then "." ++ padded 3 (nano / 1000000)
  else if nano % 1000 = 0 then "." ++ padded 6 (nano / 1000)
  else "." ++ padded 9 nano

/-- Date and clock; a leap second is written as the second after its own, the last one as `60`. -/
def render (t : Timestamp) : String :=
  let leap := t.nano / 1000000000
  yearText t.date.year ++ "-" ++ padded 2 t.date.month ++ "-" ++ padded 2 t.date.day ++ "T" ++
    padded 2 (t.second / 3600) ++ ":" ++ padded 2 (t.second / 60 % 60) ++ ":" ++
    padded 2 (t.second % 60 + leap) ++ fractionText (t.nano % 1000000000)

/-- The form of records. -/
def toUniversal (t : Timestamp) : String := t.render ++ "Z"

/-- The form of responses. -/
def toOffset (t : Timestamp) : String := t.render ++ "+00:00"

end Timestamp

end Turnstile
