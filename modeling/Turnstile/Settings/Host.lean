import Turnstile.Text.Decimal

/-! Hosts that can be listened on: IP addresses, not names. An IPv4 address is four decimal numbers;
an IPv6 address is eight hexadecimal groups, of which one run may be left out, and whose last two
may be written as an IPv4 address. -/

namespace Turnstile.Host

/-- A reader takes a part of an address off the front of a text. -/
abbrev Reader := List Char → Option (List Char)

/-- A decimal number below 256 without a leading zero. -/
def readOctet : Reader := fun cs =>
  let ds := cs.takeWhile Char.isDigit
  if ds.isEmpty || 3 < ds.length || 255 < Decimal.value ds || (ds.head? == some '0' && ds != ['0'])
  then none
  else some (cs.drop ds.length)

/-- A mark, and a part after it. -/
def readAfter (mark : Char) (read : Reader) : Reader
  | c :: cs => if c = mark then read cs else none
  | [] => none

def readV4 : Reader := fun cs => do
  let next := readAfter '.' readOctet
  next (← next (← next (← readOctet cs)))

def isHex (c : Char) : Bool := c.isDigit || ('a' ≤ c && c ≤ 'f') || ('A' ≤ c && c ≤ 'F')

/-- One to four hexadecimal digits. -/
def readGroup : Reader := fun cs =>
  let ds := cs.takeWhile isHex
  if ds.isEmpty || 4 < ds.length then none else some (cs.drop ds.length)

/-- As many groups as are there, `most` at most: how many, whether an IPv4 address ends them, and
the rest. An IPv4 address stands for two groups. -/
def readGroups (most : Nat) (first : Bool) (cs : List Char) : Nat × Bool × List Char :=
  match most with
  | 0 => (0, false, cs)
  | more + 1 =>
    let part (read : Reader) : Option (List Char) :=
      if first then read cs else readAfter ':' read cs
    match (if more = 0 then none else part readV4), part readGroup with
    | some rest, _ => (2, true, rest)
    | none, some rest =>
      let (n, mixed, rest) := readGroups more false rest
      (n + 1, mixed, rest)
    | none, none => (0, false, cs)

/-- At least one group is left out where `::` stands. -/
def readV6 : Reader := fun cs =>
  match readGroups 8 true cs with
  | (8, _, rest) => some rest
  | (_, true, _) => none
  | (n, false, ':' :: ':' :: rest) => some (readGroups (7 - n) true rest).2.2
  | _ => none

def isAddress (host : String) : Bool :=
  readV4 host.toList == some [] || readV6 host.toList == some []

end Turnstile.Host
