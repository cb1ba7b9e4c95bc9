/-! UTF-8 over byte lists, by plain arithmetic. `encode` writes the one well-formed spelling of a
character; `next` reads one character and takes nothing else, so overlong forms, surrogates and
values past `0x10FFFF` are refused. A refused piece is the longest stretch that some well-formed
spelling begins with, at least one byte: that is what one replacement character stands for in
`decodeLossy`. -/

namespace Turnstile.Utf8

/-! ## Writing -/

def encodeChar (c : Char) : List UInt8 :=
  let n := c.toNat
  if n < 0x80 then [n.toUInt8]
  else if n < 0x800 then [(0xC0 + n / 64).toUInt8, (0x80 + n % 64).toUInt8]
  else if n < 0x10000 then
    [(0xE0 + n / 4096).toUInt8, (0x80 + n / 64 % 64).toUInt8, (0x80 + n % 64).toUInt8]
  else
    [(0xF0 + n / 262144).toUInt8, (0x80 + n / 4096 % 64).toUInt8, (0x80 + n / 64 % 64).toUInt8,
      (0x80 + n % 64).toUInt8]

def encodeList (cs : List Char) : List UInt8 := cs.flatMap encodeChar

def encode (s : String) : List UInt8 := encodeList s.toList

/-! ## Reading -/

/-- What stands at the head of a byte list: a character or a piece that spells none. -/
inductive Head where
  | char (c : Char) (rest : List UInt8)
  | broken (rest : List UInt8)

def between (lo hi : Nat) (b : UInt8) : Bool := lo ≤ b.toNat && b.toNat ≤ hi

def isTail (b : UInt8) : Bool := between 0x80 0xBF b

/-- The bytes that may follow a lead byte of three or four; the bounds rule out overlong forms,
surrogates and values past the last character. -/
def mayFollow (lead second : UInt8) : Bool :=
  match lead.toNat with
  | 0xE0 => between 0xA0 0xBF second
  | 0xED => between 0x80 0x9F second
  | 0xF0 => between 0x90 0xBF second
  | 0xF4 => between 0x80 0x8F second
  | _ => isTail second

def readTwo (lead : Nat) : List UInt8 → Head
  | b :: rest =>
    if isTail b then .char (Char.ofNat ((lead - 0xC0) * 64 + (b.toNat - 0x80))) rest
    else .broken (b :: rest)
  | [] => .broken []

def readThree (lead : UInt8) : List UInt8 → Head
  | b :: c :: rest =>
    if mayFollow lead b then
      if isTail c then
        .char (Char.ofNat
          ((lead.toNat - 0xE0) * 4096 + (b.toNat - 0x80) * 64 + (c.toNat - 0x80))) rest
      else .broken (c :: rest)
    else .broken (b :: c :: rest)
  | [b] => if mayFollow lead b then .broken [] else .broken [b]
  | [] => .broken []

def readFour (lead : UInt8) : List UInt8 → Head
  | b :: c :: d :: rest =>
    if mayFollow lead b then
      if isTail c then
        if isTail d then
          .char (Char.ofNat ((lead.toNat - 0xF0) * 262144 + (b.toNat - 0x80) * 4096 +
            (c.toNat - 0x80) * 64 + (d.toNat - 0x80))) rest
        else .broken (d :: rest)
      else .broken (c :: d :: rest)
    else .broken (b :: c :: d :: rest)
  | [b, c] =>
    if mayFollow lead b then if isTail c then .broken [] else .broken [c] else .broken [b, c]
  | [b] => if mayFollow lead b then .broken [] else .broken [b]
  | [] => .broken []

/-- The head of the byte list; `none` at its end. -/
def next : List UInt8 → Option Head
  | [] => none
  | b :: rest =>
    let n := b.toNat
    if n < 0x80 then some (.char (Char.ofNat n) rest)
    else if n < 0xC2 then some (.broken rest)
    else if n < 0xE0 then some (readTwo n rest)
    else if n < 0xF0 then some (readThree b rest)
    else if n < 0xF5 then some (readFour b rest)
    else some (.broken rest)

/-- Every step takes a byte, so as many steps as bytes suffice. -/
def decodeSteps : Nat → List UInt8 → List Char → Option (List Char)
  | 0, _, seen => some seen.reverse
  | steps + 1, bytes, seen =>
    match next bytes with
    | none => some seen.reverse
    | some (.char c rest) => decodeSteps steps rest (c :: seen)
    | some (.broken _) => none

/-- The text that the bytes spell, if they spell one. -/
def decode? (bytes : List UInt8) : Option String :=
  (decodeSteps bytes.length bytes []).map String.ofList

def decodeLossySteps : Nat → List UInt8 → List Char → List Char
  | 0, _, seen => seen.reverse
  | steps + 1, bytes, seen =>
    match next bytes with
    | none => seen.reverse
    | some (.char c rest) => decodeLossySteps steps rest (c :: seen)
    | some (.broken rest) => decodeLossySteps steps rest ('\uFFFD' :: seen)

/-- Each broken piece becomes one replacement character. -/
def decodeLossy (bytes : List UInt8) : String :=
  String.ofList (decodeLossySteps bytes.length bytes [])

end Turnstile.Utf8
