import Turnstile.Settings.Value
import Turnstile.Time.Date

/-! The scalars of TOML: strings in their four forms, and the words that are truth values, numbers
or moments. A moment is kept as its text. -/

namespace Turnstile.Toml

abbrev Reader (α : Type) := List Char → Option (α × List Char)

/-! ## Characters -/

/-- Characters that may stand in a comment or a string: no control characters but the tab. -/
def isPlain (c : Char) : Bool := c == '\t' || (0x20 ≤ c.toNat && c.toNat != 0x7F)

def isSpace (c : Char) : Bool := c == ' ' || c == '\t'

def hexValue? (c : Char) : Option Nat :=
  if c.isDigit then some (Decimal.digitValue c)
  else if 'a' ≤ c ∧ c ≤ 'f' then some (c.toNat - 87)
  else if 'A' ≤ c ∧ c ≤ 'F' then some (c.toNat - 55)
  else none

/-- The rest after a line end. -/
def lineEnd? : List Char → Option (List Char)
  | '\n' :: rest => some rest
  | '\r' :: '\n' :: rest => some rest
  | _ => none

/-! ## Strings -/

/-- A character by its number, which must be one of a character. -/
def readNumbered (width : Nat) : Reader Char := fun cs => do
  let digits := cs.take width
  if digits.length < width then none
  let values ← digits.mapM hexValue?
  let n := values.foldl (fun n d => n * 16 + d) 0
  if n.isValidChar then some (Char.ofNat n, cs.drop width) else none

/-- What follows a backslash. -/
def readEscape : Reader Char
  | 'b' :: rest => some ('\x08', rest)
  | 't' :: rest => some ('\t', rest)
  | 'n' :: rest => some ('\n', rest)
  | 'f' :: rest => some ('\x0C', rest)
  | 'r' :: rest => some ('\r', rest)
  | '"' :: rest => some ('"', rest)
  | '\\' :: rest => some ('\\', rest)
  | 'u' :: rest => readNumbered 4 rest
  | 'U' :: rest => readNumbered 8 rest
  | _ => none

/-- The rest of a string on one line; `seen` holds its characters, last first. Each step takes a
character at least. -/
def readBasic : Nat → List Char → Reader String
  | 0, _, _ => none
  | _ + 1, seen, '"' :: rest => some (String.ofList seen.reverse, rest)
  | more + 1, seen, '\\' :: rest => do
    let (c, rest) ← readEscape rest
    readBasic more (c :: seen) rest
  | more + 1, seen, c :: rest => if isPlain c then readBasic more (c :: seen) rest else none
  | _ + 1, _, [] => none

/-- No escapes. -/
def readLiteral : Reader String := fun cs =>
  let content := cs.takeWhile (· != '\'')
  match cs.drop content.length with
  | _ :: rest => if content.all isPlain then some (String.ofList content, rest) else none
  | [] => none

/-- The rest after blanks and line ends. -/
def dropBlankLines : List Char → List Char
  | '\n' :: rest => dropBlankLines rest
  | '\r' :: '\n' :: rest => dropBlankLines rest
  | c :: rest => if isSpace c then dropBlankLines rest else c :: rest
  | [] => []

/-- The rest after a backslash at the end of a line: blanks and line ends up to the next text. The
line may end in blanks. -/
def continued? (cs : List Char) : Option (List Char) :=
  (lineEnd? (cs.dropWhile isSpace)).map dropBlankLines

/-- The rest of a string over several lines, with or without escapes. Up to two quotes may stand
before the three that close it. -/
def readLines (quote : Char) (escapes : Bool) : Nat → List Char → Reader String
  | 0, _, _ => none
  | more + 1, seen, cs =>
    let quotes := cs.takeWhile (· == quote)
    if 6 ≤ quotes.length then none
    else if 3 ≤ quotes.length then
      some (String.ofList (List.replicate (quotes.length - 3) quote ++ seen).reverse,
        cs.drop quotes.length)
    else match cs, lineEnd? cs with
      | _, some rest => readLines quote escapes more ('\n' :: seen) rest
      | '\\' :: rest, none =>
        if !escapes then readLines quote escapes more ('\\' :: seen) rest
        else match continued? rest with
          | some rest => readLines quote escapes more seen rest
          | none => do
            let (c, rest) ← readEscape rest
            readLines quote escapes more (c :: seen) rest
      | c :: rest, none =>
        if isPlain c then readLines quote escapes more (c :: seen) rest else none
      | [], none => none

/-- A line end straight after the opening quotes does not count. -/
def dropFirstEnd (cs : List Char) : List Char := (lineEnd? cs).getD cs

def readString : Reader String
  | '"' :: '"' :: '"' :: rest => readLines '"' true (rest.length + 1) [] (dropFirstEnd rest)
  | '\'' :: '\'' :: '\'' :: rest => readLines '\'' false (rest.length + 1) [] (dropFirstEnd rest)
  | '"' :: rest => readBasic (rest.length + 1) [] rest
  | '\'' :: rest => readLiteral rest
  | _ => none

/-! ## Numbers -/

/-- Digits with single underscores between them. -/
def digits? (isDigit : Char → Bool) (cs : List Char) : Option (List Char) :=
  let rec go (afterDigit : Bool) : List Char → Option (List Char)
    | [] => if afterDigit then some [] else none
    | '_' :: rest => if afterDigit then go false rest else none
    | c :: rest => if isDigit c then (go true rest).map (c :: ·) else none
  go false cs

def splitSign : List Char → Bool × Bool × List Char
  | '-' :: rest => (true, true, rest)
  | '+' :: rest => (true, false, rest)
  | cs => (false, false, cs)

/-- No zero before another digit. -/
def noLeadingZero : List Char → Bool
  | '0' :: _ :: _ => false
  | _ => true

def ofBase? (base : Nat) (cs : List Char) : Option Setting := do
  let digits ← digits? (fun c => (hexValue? c).any (· < base)) cs
  let n := digits.foldl (fun n c => n * base + (hexValue? c).getD 0) 0
  if Setting.isInt64 n then some (.int n) else none

def integer? (cs : List Char) : Option Setting := do
  match cs with
  | '0' :: 'x' :: rest => ofBase? 16 rest
  | '0' :: 'o' :: rest => ofBase? 8 rest
  | '0' :: 'b' :: rest => ofBase? 2 rest
  | cs =>
    let (_, negative, rest) := splitSign cs
    let digits ← digits? Char.isDigit rest
    let n : Int := if negative then -(Decimal.value digits : Int) else Decimal.value digits
    if noLeadingZero digits && Setting.isInt64 n then some (.int n) else none

/-- Digits, then a fraction or an exponent or both. A number past the range is taken only below
zero. -/
def float? (cs : List Char) : Option Setting := do
  let (_, negative, rest) := splitSign cs
  if rest == "inf".toList then return .float (.infinite negative)
  if rest == "nan".toList then return .float .nan
  let whole := rest.takeWhile fun c => c.isDigit || c == '_'
  let rest := rest.drop whole.length
  let whole ← digits? Char.isDigit whole
  let (fraction, rest) ← match rest with
    | '.' :: rest =>
      let fraction := rest.takeWhile fun c => c.isDigit || c == '_'
      (digits? Char.isDigit fraction).map (·, rest.drop fraction.length)
    | rest => some ([], rest)
  let power ← match rest with
    | [] => some (0 : Int)
    | e :: rest =>
      if e != 'e' && e != 'E' then none
      else
        let (_, negative, rest) := splitSign rest
        (digits? Char.isDigit rest).map fun ds =>
          if negative then -(Decimal.value ds : Int) else Decimal.value ds
  if !noLeadingZero whole then none
  let size := Decimal.value (whole ++ fraction)
  match Binary64.ofDecimal negative size (power - fraction.length) with
  | .infinite false => none
  | x => some (.float x)

/-! ## Moments -/

/-- So many digits. -/
def fixed? (width : Nat) : Reader Nat := fun cs =>
  let ds := cs.take width
  if ds.length == width && ds.all Char.isDigit then some (Decimal.value ds, cs.drop width)
  else none

def mark? (c : Char) : List Char → Option (List Char)
  | d :: rest => if c = d then some rest else none
  | [] => none

/-- A date of a year with four digits, as it stands. -/
def date? : Reader String := fun cs => do
  let (year, rest) ← fixed? 4 cs
  let (month, rest) ← fixed? 2 (← mark? '-' rest)
  let (day, rest) ← fixed? 2 (← mark? '-' rest)
  let _ ← Date.of? year month day
  return (String.ofList (cs.take 10), rest)

/-- The fraction without the zeros at its end; nine digits count. -/
def fraction? : Reader String
  | '.' :: rest =>
    let ds := rest.takeWhile Char.isDigit
    if ds.isEmpty then none
    else
      let kept := ((ds.take 9).reverse.dropWhile (· == '0')).reverse
      some (if kept.isEmpty then "" else "." ++ String.ofList kept, rest.drop ds.length)
  | cs => some ("", cs)

def clock? : Reader String := fun cs => do
  let (hour, rest) ← fixed? 2 cs
  let (minute, rest) ← fixed? 2 (← mark? ':' rest)
  let (second, rest) ← fixed? 2 (← mark? ':' rest)
  let (fraction, rest) ← fraction? rest
  if hour ≤ 23 && minute ≤ 59 && second ≤ 60 then
    some (String.ofList (cs.take 8) ++ fraction, rest)
  else none

def offset? : Reader String
  | [] => some ("", [])
  | c :: rest => do
    if c == 'Z' || c == 'z' then return ("Z", rest)
    if c != '+' && c != '-' then none
    let (hour, more) ← fixed? 2 rest
    let (minute, more) ← fixed? 2 (← mark? ':' more)
    if hour ≤ 23 && minute ≤ 59 then
      some (String.singleton c ++ String.ofList (rest.take 5), more)
    else none

/-- A date, a clock, or both with an optional offset. -/
def moment? (cs : List Char) : Option String :=
  match clock? cs with
  | some (clock, []) => some clock
  | _ => do
    let (date, rest) ← date? cs
    match rest with
    | [] => return date
    | c :: rest =>
      if c != 'T' && c != 't' && c != ' ' then none
      let (clock, rest) ← clock? rest
      let (offset, rest) ← offset? rest
      if rest.isEmpty then some (date ++ "T" ++ clock ++ offset) else none

/-! ## Words -/

def isWordChar (c : Char) : Bool := c.isAlphanum || ['+', '-', '.', '_', ':'].contains c

/-- The word at the head; the one blank between a date and a clock belongs to it. -/
def takeWord (cs : List Char) : List Char × List Char :=
  let word := cs.takeWhile isWordChar
  let rest := cs.drop word.length
  match rest with
  | ' ' :: d :: _ =>
    if word.length == 10 && (date? word).isSome && d.isDigit then
      let clock := (rest.drop 1).takeWhile isWordChar
      (word ++ ' ' :: clock, rest.drop (clock.length + 1))
    else (word, rest)
  | _ => (word, rest)

def readWord : Reader Setting := fun cs =>
  let (word, rest) := takeWord cs
  let value :=
    if word == "true".toList then some (.bool true)
    else if word == "false".toList then some (.bool false)
    else (integer? word).or ((float? word).or ((moment? word).map .text))
  value.map (·, rest)

end Turnstile.Toml
