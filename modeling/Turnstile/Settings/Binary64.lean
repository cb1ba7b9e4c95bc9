import Turnstile.Text.Decimal

/-! Numbers with a fraction, as settings hold them: binary64, computed exactly. A decimal text is
read as the nearest number, ties to even; a number is written with the fewest digits that read
back as it, without an exponent. -/

namespace Turnstile

inductive Binary64 where
  | nan
  | infinite (negative : Bool)
  /-- The value is `±mantissa · 2 ^ exponent`, with a mantissa below `2 ^ 53`. -/
  | finite (negative : Bool) (mantissa : Nat) (exponent : Int)
deriving DecidableEq

namespace Binary64

/-! ## Rounding -/

/-- The whole number nearest to a quotient, the even one of two. -/
def roundQuotient (num den : Nat) : Nat :=
  let q := num / den
  let rest := num % den
  if 2 * rest < den then q
  else if den < 2 * rest then q + 1
  else q + q % 2

/-- Numerator and denominator of a quotient divided by a power of two. -/
def scaled (num den : Nat) (exponent : Int) : Nat × Nat :=
  if 0 ≤ exponent then (num, den * Nat.pow 2 exponent.toNat)
  else (num * Nat.pow 2 (-exponent).toNat, den)

/-- `2 ^ 52`: only numbers with the least exponent have a smaller mantissa. -/
def leastMantissa : Nat := 0x10000000000000

def leastExponent : Int := -1074

def greatestExponent : Int := 971

/-- The number nearest to a positive quotient. -/
def ofQuotient (negative : Bool) (num den : Nat) : Binary64 :=
  if num = 0 then .finite negative 0 leastExponent
  else
    let guess : Int := (num.log2 : Int) - den.log2 - 52
    let (n, d) := scaled num den guess
    let exponent := max (if n < d * leastMantissa then guess - 1 else guess) leastExponent
    let (n, d) := scaled num den exponent
    let mantissa := roundQuotient n d
    let (mantissa, exponent) :=
      if mantissa = 2 * leastMantissa then (leastMantissa, exponent + 1) else (mantissa, exponent)
    if greatestExponent < exponent then .infinite negative else .finite negative mantissa exponent

/-- The number nearest to `mantissa · 10 ^ exponent`. Numbers with more than 310 places are past the
range and those below `10 ^ -330` are nearest to zero, so no large power is built for them. -/
def ofDecimal (negative : Bool) (mantissa : Nat) (exponent : Int) : Binary64 :=
  let places := ((Nat.toDigits 10 mantissa).length : Int) + exponent
  if mantissa = 0 ∨ places < -330 then .finite negative 0 leastExponent
  else if 310 < places then .infinite negative
  else if 0 ≤ exponent then ofQuotient negative (mantissa * Nat.pow 10 exponent.toNat) 1
  else ofQuotient negative mantissa (Nat.pow 10 (-exponent).toNat)

/-! ## Questions -/

def isZero : Binary64 → Bool
  | .finite _ mantissa _ => mantissa == 0
  | _ => false

/-- The nearest whole number, a half away from zero, and cut to the counts below `2 ^ 64`. -/
def toCount : Binary64 → Nat
  | .nan | .infinite true => 0
  | .infinite false => UInt64.size - 1
  | .finite negative mantissa exponent =>
    if negative then 0
    else if 0 ≤ exponent then min (mantissa * Nat.pow 2 exponent.toNat) (UInt64.size - 1)
    else
      let unit := Nat.pow 2 (-exponent).toNat
      min ((2 * mantissa + unit) / (2 * unit)) (UInt64.size - 1)

/-! ## Writing -/

/-- `digits · 10 ^ power` without an exponent. -/
def positional (digits : Nat) (power : Int) : List Char :=
  let ds := Nat.toDigits 10 digits
  if 0 ≤ power then ds ++ List.replicate power.toNat '0'
  else
    let places := (-power).toNat
    let ds := List.replicate (places + 1 - ds.length) '0' ++ ds
    let fraction := ((ds.drop (ds.length - places)).reverse.dropWhile (· == '0')).reverse
    ds.take (ds.length - places) ++ if fraction.isEmpty then [] else '.' :: fraction

/-- `digits · 10 ^ power` and `count · 2 ^ exponent` over one denominator. -/
def sides (digits : Nat) (power : Int) (count : Nat) (exponent : Int) : Nat × Nat :=
  (digits * Nat.pow 10 power.toNat * Nat.pow 2 (-exponent).toNat,
    count * Nat.pow 2 exponent.toNat * Nat.pow 10 (-power).toNat)

/-- The decimal reads back as the number: it lies between the midpoints to the neighbours, which
belong to the number with the even mantissa. Quarters are counted, since just above a power of two
the lower neighbour is half as far. -/
def readsBack (mantissa : Nat) (exponent : Int) (digits : Nat) (power : Int) : Bool :=
  let narrow := mantissa == leastMantissa && leastExponent < exponent
  let (x, low) := sides digits power (4 * mantissa - if narrow then 1 else 2) (exponent - 2)
  let (y, high) := sides digits power (4 * mantissa + 2) (exponent - 2)
  if mantissa % 2 == 0 then low ≤ x && y ≤ high else low < x && y < high

/-- Of the two neighbours on a decimal grid the one that reads back, the nearer if both do. -/
def gridDigits? (mantissa : Nat) (exponent power : Int) : Option Nat :=
  let (unit, number) := sides 1 power mantissa exponent
  let below := number / unit
  let rest := number % unit
  let nearerFirst := if 2 * rest < unit ∨ (2 * rest = unit ∧ below % 2 = 0)
    then [below, below + 1] else [below + 1, below]
  nearerFirst.find? fun digits => readsBack mantissa exponent digits power

/-- The exponent of ten of the first digit of a positive number. -/
def firstPlace (mantissa : Nat) (exponent : Int) : Int :=
  let shift := (-exponent).toNat
  -- ten to the shift makes the number whole
  let whole := mantissa * Nat.pow 2 exponent.toNat * Nat.pow 5 shift
  ((Nat.toDigits 10 whole).length : Int) - 1 - shift

/-- The fewest digits that read back, from one to seventeen. -/
def shortest (mantissa : Nat) (exponent : Int) : List Char :=
  let first := firstPlace mantissa exponent
  let found := (List.range 17).findSome? fun (more : Nat) =>
    let power := first - more
    (gridDigits? mantissa exponent power).map (·, power)
  match found with
  | some (digits, power) => positional digits power
  | none => positional mantissa 0

def render : Binary64 → String
  | .nan => "NaN"
  | .infinite negative => (if negative then "-" else "") ++ "inf"
  | .finite negative mantissa exponent =>
    (if negative then "-" else "") ++
      if mantissa = 0 then "0" else String.ofList (shortest mantissa exponent)

/-! ## Reading -/

/-- The power of ten after an `e`; no `e` means none. -/
def readPower? : List Char → Option Int
  | [] => some 0
  | e :: rest =>
    if e ≠ 'e' ∧ e ≠ 'E' then none else Decimal.integer? rest

/-- Digits with at most one point, at least one digit, and a power. -/
def readDigits? (negative : Bool) (cs : List Char) : Option Binary64 := do
  let whole := cs.takeWhile Char.isDigit
  let rest := cs.drop whole.length
  let (fraction, rest) := match rest with
    | '.' :: rest => (rest.takeWhile Char.isDigit, rest.dropWhile Char.isDigit)
    | rest => ([], rest)
  if whole.isEmpty && fraction.isEmpty then none
  let power ← readPower? rest
  return ofDecimal negative (Decimal.value (whole ++ fraction)) (power - fraction.length)

/-- A decimal text, or a word for a value without digits, in any case. -/
def parse? (s : String) : Option Binary64 :=
  let (negative, cs) := match s.toList with
    | '-' :: cs => (true, cs)
    | '+' :: cs => (false, cs)
    | cs => (false, cs)
  match String.ofList (cs.map Char.toLower) with
  | "nan" => some .nan
  | "inf" | "infinity" => some (.infinite negative)
  | _ => readDigits? negative cs

end Binary64

end Turnstile
