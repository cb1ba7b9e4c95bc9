import Turnstile.Json.Number
import Turnstile.Text.Percent

/-! JSON tokens over bytes. The list of tokens ends with `bad` at the first place where no token
can be read, so that a reader which needs fewer tokens may finish, or fail for a reason of its
own, before it gets there. -/

namespace Turnstile.Json

inductive Token where
  | openObject
  | closeObject
  | openArray
  | closeArray
  | colon
  | comma
  | null
  | bool (b : Bool)
  | num (n : Number)
  /-- `none` when the escapes or bytes spell no text; such a string may only be skipped. -/
  | str (text : Option String)
  | bad
deriving DecidableEq

namespace Token

def isSpace (b : UInt8) : Bool := b == 0x20 || b == 0x0A || b == 0x09 || b == 0x0D

def isDigit (b : UInt8) : Bool := 0x30 ≤ b && b ≤ 0x39

/-! ## Numbers -/

/-- The digits at the head continue the value `n`; also says how many there were. -/
def readDigits (n count : Nat) : List UInt8 → Nat × Nat × List UInt8
  | b :: rest =>
    if isDigit b then readDigits (n * 10 + (b.toNat - 0x30)) (count + 1) rest
    else (n, count, b :: rest)
  | [] => (n, count, [])

/-- No zero may stand before another digit. -/
def readWhole : List UInt8 → Option (Nat × List UInt8)
  | 0x30 :: rest => if (rest.head?.any isDigit) then none else some (0, rest)
  | bytes =>
    match readDigits 0 0 bytes with
    | (_, 0, _) => none
    | (n, _, rest) => some (n, rest)

/-- Digits after a point; the second part counts them, `none` when there is no point. -/
def readFraction (n : Nat) : List UInt8 → Option (Nat × Option Nat × List UInt8)
  | 0x2E :: rest =>
    match readDigits n 0 rest with
    | (_, 0, _) => none
    | (n, count, rest) => some (n, some count, rest)
  | bytes => some (n, none, bytes)

def readPower (rest : List UInt8) : Option (Int × List UInt8) :=
  let (negative, digits) := match rest with
    | 0x2D :: rest => (true, rest)
    | 0x2B :: rest => (false, rest)
    | rest => (false, rest)
  match readDigits 0 0 digits with
  | (_, 0, _) => none
  | (n, _, rest) => some (if negative then -(n : Int) else n, rest)

/-- `none` in the result when there is no exponent. -/
def readExponent : List UInt8 → Option (Option Int × List UInt8)
  | b :: rest =>
    if b = 0x65 ∨ b = 0x45 then (readPower rest).map fun (n, rest) => (some n, rest)
    else some (none, b :: rest)
  | [] => some (none, [])

def readUnsigned (negative : Bool) (bytes : List UInt8) : Option (Number × List UInt8) := do
  let (n, rest) ← readWhole bytes
  let (n, places, rest) ← readFraction n rest
  let (power, rest) ← readExponent rest
  return (⟨negative, n, power.getD 0 - (places.getD 0 : Nat), places.isNone && power.isNone⟩,
    rest)

def readNumber : List UInt8 → Option (Number × List UInt8)
  | 0x2D :: rest => readUnsigned true rest
  | bytes => readUnsigned false bytes

/-! ## Strings -/

/-- Four hexadecimal digits. -/
def readUnit : List UInt8 → Option (Nat × List UInt8)
  | a :: b :: c :: d :: rest => do
    let high ← Percent.pair? a b
    let low ← Percent.pair? c d
    return (high.toNat * 256 + low.toNat, rest)
  | _ => none

/-- The byte that a one-letter escape stands for. -/
def shortEscape? (b : UInt8) : Option UInt8 :=
  if b = 0x22 ∨ b = 0x5C ∨ b = 0x2F then some b
  else if b = 0x62 then some 0x08
  else if b = 0x66 then some 0x0C
  else if b = 0x6E then some 0x0A
  else if b = 0x72 then some 0x0D
  else if b = 0x74 then some 0x09
  else none

def isHighHalf (n : Nat) : Bool := 0xD800 ≤ n && n < 0xDC00

def isLowHalf (n : Nat) : Bool := 0xDC00 ≤ n && n < 0xE000

/-- The low half of a pair, if the next escape is one. -/
def readLowHalf : List UInt8 → Option (Nat × List UInt8)
  | 0x5C :: 0x75 :: rest =>
    match readUnit rest with
    | some (n, rest) => if isLowHalf n then some (n, rest) else none
    | none => none
  | _ => none

/-- A numbered escape: the bytes of its character, none for half a pair that stands alone. -/
def readNumbered (rest : List UInt8) : Option (Option (List UInt8) × List UInt8) := do
  let (n, rest) ← readUnit rest
  if isHighHalf n then
    match readLowHalf rest with
    | some (low, rest) =>
      return (some (Utf8.encodeChar
        (Char.ofNat (0x10000 + (n - 0xD800) * 1024 + (low - 0xDC00)))), rest)
    | none => return (none, rest)
  else if isLowHalf n then return (none, rest)
  else return (some (Utf8.encodeChar (Char.ofNat n)), rest)

/-- The content of a string after its opening quote, up to the closing one. `seen` holds the bytes
so far, last first; `sound` is false once an escape spelled no character. Each step takes a byte
at least. -/
def readContent : Nat → Bool → List UInt8 → List UInt8 → Option (Option String × List UInt8)
  | 0, _, _, _ => none
  | steps + 1, sound, seen, bytes =>
    match bytes with
    | [] => none
    | 0x22 :: rest => some (if sound then Utf8.decode? seen.reverse else none, rest)
    | 0x5C :: 0x75 :: rest =>
      match readNumbered rest with
      | some (some spelled, rest) => readContent steps sound (spelled.reverse ++ seen) rest
      | some (none, rest) => readContent steps false seen rest
      | none => none
    | 0x5C :: b :: rest =>
      match shortEscape? b with
      | some b => readContent steps sound (b :: seen) rest
      | none => none
    | b :: rest => if b < 0x20 ∨ b = 0x5C then none else readContent steps sound (b :: seen) rest

def readString (rest : List UInt8) : Option (Option String × List UInt8) :=
  readContent rest.length true [] rest

/-! ## All tokens -/

/-- A word in full. -/
def readWord (word : List UInt8) (token : Token) (bytes : List UInt8) :
    Option (Token × List UInt8) :=
  if word.isPrefixOf bytes then some (token, bytes.drop word.length) else none

/-- The token at the head of a list that starts with no space. -/
def readOne : List UInt8 → Option (Token × List UInt8)
  | [] => none
  | 0x7B :: rest => some (.openObject, rest)
  | 0x7D :: rest => some (.closeObject, rest)
  | 0x5B :: rest => some (.openArray, rest)
  | 0x5D :: rest => some (.closeArray, rest)
  | 0x3A :: rest => some (.colon, rest)
  | 0x2C :: rest => some (.comma, rest)
  | 0x22 :: rest => (readString rest).map fun (text, rest) => (.str text, rest)
  | 0x6E :: rest => readWord [0x75, 0x6C, 0x6C] .null rest
  | 0x74 :: rest => readWord [0x72, 0x75, 0x65] (.bool true) rest
  | 0x66 :: rest => readWord [0x61, 0x6C, 0x73, 0x65] (.bool false) rest
  | bytes => (readNumber bytes).map fun (n, rest) => (.num n, rest)

/-- Each step takes a byte at least. `seen` holds the tokens so far, last first. -/
def readAll : Nat → List Token → List UInt8 → List Token
  | 0, seen, _ => seen.reverse
  | _, seen, [] => seen.reverse
  | steps + 1, seen, b :: rest =>
    if isSpace b then readAll steps seen rest
    else match readOne (b :: rest) with
      | some (token, rest) => readAll steps (token :: seen) rest
      | none => (Token.bad :: seen).reverse

def ofBytes (bytes : List UInt8) : List Token := readAll bytes.length [] bytes

end Token

end Turnstile.Json
