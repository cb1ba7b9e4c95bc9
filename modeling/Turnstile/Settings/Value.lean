import Turnstile.Json.Value
import Turnstile.Settings.Binary64
import Turnstile.Text.Case

/-! Setting values, as files and the environment give them, and their loose conversions: a count
may be written as a truth value, a number with a fraction or a text, and so on. -/

namespace Turnstile

inductive Setting where
  | null
  | bool (b : Bool)
  | int (n : Int)
  | float (x : Binary64)
  | text (s : String)
  | list (items : List Setting)
  | table (entries : List (String × Setting))

namespace Setting

/-- The whole numbers that a setting can hold. -/
def isInt64 (n : Int) : Bool := -0x8000000000000000 ≤ n && n < 0x8000000000000000

/-! ## Conversions -/

/-- Digits with an optional plus sign, below `2 ^ 64`. -/
def readCount? (s : String) : Option Nat :=
  (Decimal.unsigned? s.toList).filter (· < UInt64.size)

/-- A count below `2 ^ 64`. -/
def toCount? : Setting → Option Nat
  | bool b => some b.toNat
  | int n => if n < 0 then none else some n.toNat
  | float x => some x.toCount
  | text s =>
    if ["true", "on", "yes"].contains (Text.toLower s) then some 1
    else if ["false", "off", "no"].contains (Text.toLower s) then some 0
    else readCount? s
  | null | list _ | table _ => none

/-- A count below `bound`. -/
def toCountBelow? (bound : Nat) (v : Setting) : Option Nat := v.toCount?.filter (· < bound)

/-- Every number but zero counts as true. -/
def toBool? : Setting → Option Bool
  | bool b => some b
  | int n => some (n != 0)
  | float x => some !x.isZero
  | text s =>
    if ["1", "true", "on", "yes"].contains (Text.toLower s) then some true
    else if ["0", "false", "off", "no"].contains (Text.toLower s) then some false
    else none
  | null | list _ | table _ => none

/-- Every value without parts has a text. -/
def toText? : Setting → Option String
  | bool b => some (if b then "true" else "false")
  | int n => some n.repr
  | float x => some x.render
  | text s => some s
  | null | list _ | table _ => none

/-- `null` stands for no text. -/
def toOptionalText? : Setting → Option (Option String)
  | null => some none
  | v => v.toText?.map some

/-- One of some names, in any case; a table with one entry stands for its name. -/
def toChoice? (names : List (String × α)) : Setting → Option α
  | text s => pick s
  | table [(s, _)] => pick s
  | _ => none
where
  pick (s : String) : Option α :=
    (names.find? fun n => Text.toLower n.1 == Text.toLower s).map (·.2)

/-! ## From JSON -/

/-- Numbers that are whole and fit are whole; zero with a sign is not. -/
def ofNumber (n : Json.Number) : Setting :=
  let value : Int := if n.negative then -(n.mantissa : Int) else n.mantissa
  if n.whole && isInt64 value && !(n.negative && n.mantissa == 0) then int value
  else float (.ofDecimal n.negative n.mantissa n.exponent)

def ofJson : Json.Value → Setting
  | .null => null
  | .bool b => bool b
  | .num n => ofNumber n
  | .str s => text s
  | .arr items => list (ofItems items)
  | .obj members => table (ofMembers members)
where
  ofItems : List Json.Value → List Setting
    | [] => []
    | v :: rest => ofJson v :: ofItems rest
  ofMembers : List (String × Json.Value) → List (String × Setting)
    | [] => []
    | (name, v) :: rest => (name, ofJson v) :: ofMembers rest

/-! ## From the environment -/

/-- A whole number with an optional sign. -/
def readInt? (s : String) : Option Int :=
  (Decimal.integer? s.toList).filter isInt64

/-- A truth value in any case, else a whole number, else a number, else the text itself. -/
def ofEnvironment (s : String) : Setting :=
  match Text.toLower s with
  | "true" => bool true
  | "false" => bool false
  | _ =>
    match readInt? s with
    | some n => int n
    | none =>
      match Binary64.parse? s with
      | some x => float x
      | none => text s

end Setting

end Turnstile
