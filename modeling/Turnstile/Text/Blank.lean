/-! Blank and control characters. Names, credentials and carried values are cut at both ends by
`trim`, which drops every character with the White_Space property, not only the ASCII ones.
Validation messages show a refused character with `refusedForm`. -/

namespace Turnstile.Text

/-! ## The two classes -/

/-- The White_Space property. -/
def isBlank (c : Char) : Bool :=
  let n := c.toNat
  (0x09 ≤ n && n ≤ 0x0D) || n == 0x20 || n == 0x85 || n == 0xA0 || n == 0x1680 ||
    (0x2000 ≤ n && n ≤ 0x200A) || n == 0x2028 || n == 0x2029 || n == 0x202F || n == 0x205F ||
    n == 0x3000

/-- General category Cc. -/
def isControl (c : Char) : Bool :=
  let n := c.toNat
  n < 0x20 || (0x7F ≤ n && n ≤ 0x9F)

/-! ## Cutting -/

def trimStart (s : String) : String := String.ofList (s.toList.dropWhile isBlank)

def trimEnd (s : String) : String := String.ofList (s.toList.reverse.dropWhile isBlank).reverse

def trim (s : String) : String := trimEnd (trimStart s)

/-- Nothing is left of the text once it is trimmed. -/
def blank (s : String) : Bool := s.toList.all isBlank

/-! ## Showing a refused character -/

def lowerHexDigit (n : Nat) : Char := if n < 10 then Char.ofNat (48 + n) else Char.ofNat (87 + n)

/-- Lower-case hexadecimal digits without leading zeros. -/
def lowerHex (n : Nat) : String := String.ofList (Nat.toDigits 16 n)

/-- The quoted form of a blank or control character; the short escapes have priority over the
numbered one. -/
def refusedForm (c : Char) : String :=
  if c == ' ' then "' '"
  else if c == '\t' then "'\\t'"
  else if c == '\n' then "'\\n'"
  else if c == '\r' then "'\\r'"
  else if c == Char.ofNat 0 then "'\\0'"
  else "'\\u\x7b" ++ lowerHex c.toNat ++ "\x7d'"

end Turnstile.Text
