import Turnstile.Json.Number
import Turnstile.Text.Blank

/-! JSON values and their two written forms: `compact` without any blank, and `pretty` with a line
for each item and two blanks for each level. Members keep the order in which they were given. -/

namespace Turnstile.Json

inductive Value where
  | null
  | bool (b : Bool)
  | num (n : Number)
  | str (s : String)
  | arr (items : List Value)
  | obj (members : List (String × Value))

namespace Value

def nat (n : Nat) : Value := .num (.ofNat n)

def ofOption (toValue : α → Value) : Option α → Value
  | some a => toValue a
  | none => .null

/-- The value of the last member of that name. -/
def member? (name : String) : Value → Option Value
  | .obj members => (members.reverse.find? (·.1 == name)).map (·.2)
  | _ => none

end Value

/-! ## Strings -/

/-- Quotes, backslashes and characters below the blank are escaped, with the short escape where
there is one; all else stands for itself. -/
def escapeChar (c : Char) : List Char :=
  if c = '"' then ['\\', '"']
  else if c = '\\' then ['\\', '\\']
  else if c = '\n' then ['\\', 'n']
  else if c = '\r' then ['\\', 'r']
  else if c = '\t' then ['\\', 't']
  else if c = '\x08' then ['\\', 'b']
  else if c = '\x0C' then ['\\', 'f']
  else if c.toNat < 0x20 then
    ['\\', 'u', '0', '0', Text.lowerHexDigit (c.toNat / 16), Text.lowerHexDigit (c.toNat % 16)]
  else [c]

def quote (s : String) : List Char := '"' :: (s.toList.flatMap escapeChar ++ ['"'])

/-! ## Compact form -/

def compactChars : Value → List Char
  | .null => "null".toList
  | .bool true => "true".toList
  | .bool false => "false".toList
  | .num n => n.render
  | .str s => quote s
  | .arr items => '[' :: (compactItems items ++ [']'])
  | .obj members => '\x7b' :: (compactMembers members ++ ['\x7d'])
where
  compactItems : List Value → List Char
    | [] => []
    | [v] => compactChars v
    | v :: rest => compactChars v ++ ',' :: compactItems rest
  compactMembers : List (String × Value) → List Char
    | [] => []
    | [(name, v)] => quote name ++ ':' :: compactChars v
    | (name, v) :: rest => quote name ++ ':' :: compactChars v ++ ',' :: compactMembers rest

def Value.compact (v : Value) : String := String.ofList (compactChars v)

/-! ## Pretty form -/

def newLine (level : Nat) : List Char := '\n' :: List.replicate (2 * level) ' '

/-- `level` is the depth of the value; its items stand one level deeper. Empty lists and objects
stay on their line. -/
def prettyChars (level : Nat) : Value → List Char
  | .arr [] => ['[', ']']
  | .arr items => '[' :: (prettyItems (level + 1) items ++ newLine level ++ [']'])
  | .obj [] => ['\x7b', '\x7d']
  | .obj members =>
    '\x7b' :: (prettyMembers (level + 1) members ++ newLine level ++ ['\x7d'])
  | v => compactChars v
where
  prettyItems (level : Nat) : List Value → List Char
    | [] => []
    | [v] => newLine level ++ prettyChars level v
    | v :: rest => newLine level ++ prettyChars level v ++ ',' :: prettyItems level rest
  prettyMembers (level : Nat) : List (String × Value) → List Char
    | [] => []
    | [(name, v)] => newLine level ++ quote name ++ ':' :: ' ' :: prettyChars level v
    | (name, v) :: rest =>
      newLine level ++ quote name ++ ':' :: ' ' :: prettyChars level v ++
        ',' :: prettyMembers level rest

def Value.pretty (v : Value) : String := String.ofList (prettyChars 0 v)

end Turnstile.Json
