import Turnstile.Text.Case.Table

/-! Lower case of a whole text. Every character is mapped on its own except the capital sigma,
which becomes `ς` at the end of a word and `σ` elsewhere: a word ends where a cased letter stands
before the sigma and none after it, ignorable characters not counted. -/

namespace Turnstile.Text

def inRanges (ranges : List (Nat × Nat)) (c : Char) : Bool :=
  ranges.any fun r => r.1 ≤ c.toNat && c.toNat ≤ r.2

def isIgnorable (c : Char) : Bool := inRanges ignorableRanges c

/-- Cased and not ignorable; ASCII letters are in the table. -/
def isCased (c : Char) : Bool := inRanges casedRanges c

/-! ## One character -/

namespace CaseRun

def covers (r : CaseRun) (n : Nat) : Bool :=
  r.first ≤ n && n ≤ r.last && (n - r.first) % r.step == 0

def apply (r : CaseRun) (n : Nat) : Char := Char.ofNat (n + r.shift).toNat

end CaseRun

/-- The ASCII rule below `0x80`, the table above; characters without a partner stay. -/
def lowerPartner (c : Char) : Char :=
  if c.toNat < 0x80 then c.toLower
  else match caseRuns.find? (·.covers c.toNat) with
    | some r => r.apply c.toNat
    | none => c

/-- The dotted capital I is the one character whose lower case has two. -/
def lowerChar (c : Char) : List Char :=
  if c = 'İ' then ['i', '\u0307'] else [lowerPartner c]

/-! ## A text -/

/-- The first character that is not ignorable is cased. -/
def meetsCased (cs : List Char) : Bool := (cs.dropWhile isIgnorable).head?.any isCased

/-- `before` holds what was passed, nearest first. -/
def lowerFrom (before : List Char) : List Char → List Char
  | [] => []
  | c :: rest =>
    (if c = 'Σ' then [if meetsCased before && !meetsCased rest then 'ς' else 'σ']
      else lowerChar c) ++ lowerFrom (c :: before) rest

def toLower (s : String) : String := String.ofList (lowerFrom [] s.toList)

/-- Only the letters of ASCII are mapped. -/
def asciiLower (s : String) : String := String.ofList (s.toList.map Char.toLower)

def equalIgnoringAsciiCase (a b : String) : Bool := asciiLower a == asciiLower b

end Turnstile.Text
