import Turnstile.Text.Blank
import Turnstile.Text.Decimal
import Turnstile.Time.Moment

/-! Reading a moment, leniently: fields need not be padded, blanks may stand before a field or
a separator and around the offset, the letter `T` may be small or a space, and digits past the
ninth of a fraction are dropped. The offset is obligatory: `Z`, `UTC`, or hours and minutes with
any colons and blanks between them. -/

namespace Turnstile.Moment

/-- A reader takes a value off the front of a text. -/
abbrev Reader (α : Type) := List Char → Option (α × List Char)

def skipBlanks (cs : List Char) : List Char := cs.dropWhile Text.isBlank

/-! ## Fields -/

/-- One to `most` digits. -/
def readDigits (most : Nat) : Reader Nat := fun cs =>
  let ds := (cs.take most).takeWhile Char.isDigit
  if ds.isEmpty then none else some (Decimal.value ds, cs.drop ds.length)

/-- Any number of digits, one at least. -/
def readAllDigits : Reader Nat := fun cs => readDigits cs.length cs

def readField (most : Nat) : Reader Nat := fun cs => readDigits most (skipBlanks cs)

/-- A sign lifts the limit of four digits. -/
def readYear : Reader Int := fun cs =>
  match skipBlanks cs with
  | '-' :: rest => (readAllDigits rest).map fun (n, rest) => (-(n : Int), rest)
  | '+' :: rest => (readAllDigits rest).map fun (n, rest) => ((n : Int), rest)
  | rest => (readDigits 4 rest).map fun (n, rest) => ((n : Int), rest)

/-- A separator with blanks allowed before it. -/
def readMark (mark : Char) (cs : List Char) : Option (List Char) :=
  match skipBlanks cs with
  | c :: rest => if c = mark then some rest else none
  | [] => none

/-- Nanoseconds; nine digits count and the others are dropped. -/
def readFraction : Reader Nat := fun cs =>
  match cs with
  | '.' :: rest =>
    let ds := (rest.take 9).takeWhile Char.isDigit
    if ds.isEmpty then none
    else some (Decimal.value ds * Nat.pow 10 (9 - ds.length), rest.dropWhile Char.isDigit)
  | _ => some (0, cs)

/-! ## Offset -/

def readTwoDigits : Reader Nat := fun cs =>
  match cs with
  | a :: b :: rest =>
    if a.isDigit && b.isDigit then some (Decimal.value [a, b], rest) else none
  | _ => none

/-- Hours and minutes, in minutes; a whole day or more is refused. -/
def readHoursMinutes : Reader Nat := fun cs => do
  let (hours, rest) ← readTwoDigits cs
  let (minutes, rest) ← readTwoDigits (rest.dropWhile fun c => c == ':' || Text.isBlank c)
  if minutes < 60 ∧ hours < 24 then some (hours * 60 + minutes, rest) else none

def readSigned : Reader Int := fun cs =>
  match cs with
  | [] => none
  | c :: rest =>
    if c = 'Z' ∨ c = 'z' then some (0, rest)
    else if c = '+' then (readHoursMinutes rest).map fun (n, rest) => ((n : Int), rest)
    else if c = '-' ∨ c = '\u2212' then
      (readHoursMinutes rest).map fun (n, rest) => (-(n : Int), rest)
    else none

/-- Minutes ahead of universal time. -/
def readOffset : Reader Int := fun cs =>
  let cs := skipBlanks cs
  if (cs.take 3).map Char.toLower = ['u', 't', 'c'] then some (0, cs.drop 3) else readSigned cs

/-! ## The whole -/

def readDate : Reader Date := fun cs => do
  let (year, cs) ← readYear cs
  let (month, cs) ← readField 2 (← readMark '-' cs)
  let (day, cs) ← readField 2 (← readMark '-' cs)
  return (← Date.of? year month day, cs)

/-- Seconds since midnight and nanoseconds; second `60` is a leap second. -/
def readClock : Reader (Nat × Nat) := fun cs => do
  let (hour, cs) ← readField 2 cs
  let (minute, cs) ← readField 2 (← readMark ':' cs)
  let (second, cs) ← readField 2 (← readMark ':' cs)
  let (nano, cs) ← readFraction cs
  if hour < 24 ∧ minute < 60 ∧ second ≤ 60 then
    if second = 60 then some ((hour * 3600 + minute * 60 + 59, nano + 1000000000), cs)
    else some ((hour * 3600 + minute * 60 + second, nano), cs)
  else none

def dropDateEnd : List Char → Option (List Char)
  | c :: rest => if c = 'T' ∨ c = 't' ∨ c = ' ' then some rest else none
  | [] => none

def read? (s : String) : Option Moment := do
  let (date, cs) ← readDate s.toList
  let ((second, nano), cs) ← readClock (← dropDateEnd cs)
  let (minutes, cs) ← readOffset cs
  if (skipBlanks cs).isEmpty then ofLocal? date second nano minutes else none

end Turnstile.Moment
