import Turnstile.Json.Token

/-! Typed reading from JSON tokens. A decoder takes one value of its type off a token list. The
first fault wins, and a fault is either of the text (`malformed`) or of a well-formed value that
does not fit (`unfit`): a value of the wrong type that stands before a break in the text is
reported as unfit. -/

namespace Turnstile.Json

inductive Fault where
  | malformed
  | unfit
deriving DecidableEq

abbrev Decoder (α : Type) := List Token → Except Fault (α × List Token)

namespace Decoder

/-! ## Single values -/

/-- What is wrong when the head of the list is not of the wanted type. A string that spells no text
and a number out of range are faults of the text. -/
def mismatch : List Token → Fault
  | .null :: _ | .bool _ :: _ | .str (some _) :: _ | .openObject :: _ | .openArray :: _ => .unfit
  | .num n :: _ => if n.tooLarge then .malformed else .unfit
  | _ => .malformed

def text : Decoder String
  | .str (some s) :: rest => .ok (s, rest)
  | tokens => .error (mismatch tokens)

def bool : Decoder Bool
  | .bool b :: rest => .ok (b, rest)
  | tokens => .error (mismatch tokens)

/-- A count below `bound`. -/
def count (bound : Nat) : Decoder Nat
  | .num n :: rest =>
    match n.toNat? with
    | some k => if k < bound then .ok (k, rest) else .error (mismatch (.num n :: rest))
    | none => .error (mismatch (.num n :: rest))
  | tokens => .error (mismatch tokens)

def count64 : Decoder UInt64 := fun tokens => do
  let (n, rest) ← count UInt64.size tokens
  return (n.toUInt64, rest)

def count32 : Decoder UInt32 := fun tokens => do
  let (n, rest) ← count UInt32.size tokens
  return (n.toUInt32, rest)

def null : Decoder Unit
  | .null :: rest => .ok ((), rest)
  | tokens => .error (mismatch tokens)

/-- `null` stands for no value. -/
def optional (d : Decoder α) : Decoder (Option α)
  | .null :: rest => .ok (none, rest)
  | tokens => do
    let (a, rest) ← d tokens
    return (some a, rest)

/-- A text that `read` understands. -/
def parsed (read : String → Option α) : Decoder α := fun tokens => do
  let (s, rest) ← text tokens
  match read s with
  | some a => return (a, rest)
  | none => .error .unfit

/-- A constant named by a text, or by an object whose one member is that name with `null`. -/
def constant (read : String → Option α) : Decoder α
  | .openObject :: rest => do
    let (a, rest) ← parsed read rest
    match rest with
    | .colon :: rest =>
      let ((), rest) ← null rest
      match rest with
      | .closeObject :: rest => return (a, rest)
      | _ => .error .malformed
    | _ => .error .malformed
  | .str s :: rest => parsed read (.str s :: rest)
  | _ => .error .malformed

/-! ## Skipping

A value of any type and depth. The tokens are taken one at a time, so depth is bounded by nothing;
strings need not spell texts, and numbers may have any size. -/

/-- What may come next. -/
inductive Awaited where
  | value
  | firstItem
  | firstName
  | name
  | colon
  | separator

/-- What encloses the place. -/
inductive Enclosing where
  | object
  | array

def skipFrom : Awaited → List Enclosing → List Token → Except Fault (List Token)
  | .separator, [], tokens => .ok tokens
  | _, _, [] => .error .malformed
  | awaited, stack, token :: rest =>
    match awaited, token, stack with
    | .value, .null, _ | .value, .bool _, _ | .value, .num _, _ | .value, .str _, _
    | .firstItem, .null, _ | .firstItem, .bool _, _ | .firstItem, .num _, _
    | .firstItem, .str _, _ => skipFrom .separator stack rest
    | .value, .openArray, _ | .firstItem, .openArray, _ =>
      skipFrom .firstItem (.array :: stack) rest
    | .value, .openObject, _ | .firstItem, .openObject, _ =>
      skipFrom .firstName (.object :: stack) rest
    | .firstItem, .closeArray, .array :: stack => skipFrom .separator stack rest
    | .firstName, .closeObject, .object :: stack => skipFrom .separator stack rest
    | .firstName, .str _, _ | .name, .str _, _ => skipFrom .colon stack rest
    | .colon, .colon, _ => skipFrom .value stack rest
    | .separator, .comma, .array :: _ => skipFrom .value stack rest
    | .separator, .comma, .object :: _ => skipFrom .name stack rest
    | .separator, .closeArray, .array :: stack => skipFrom .separator stack rest
    | .separator, .closeObject, .object :: stack => skipFrom .separator stack rest
    | _, _, _ => .error .malformed

def skip (tokens : List Token) : Except Fault (List Token) := skipFrom .value [] tokens

/-! ## Lists -/

/-- Items up to the closing bracket; every item takes a token at least. -/
def itemsFrom (d : Decoder α) : Nat → List α → Decoder (List α)
  | 0, _, _ => .error .malformed
  | _ + 1, seen, .closeArray :: rest => .ok (seen.reverse, rest)
  | steps + 1, seen, .comma :: rest => do
    if rest.head? = some .closeArray then .error .malformed
    let (a, rest) ← d rest
    itemsFrom d steps (a :: seen) rest
  | _, _, _ => .error .malformed

def list (d : Decoder α) : Decoder (List α)
  | .openArray :: .closeArray :: rest => .ok ([], rest)
  | .openArray :: rest => do
    let (a, rest) ← d rest
    itemsFrom d rest.length [a] rest
  | tokens => .error (mismatch tokens)

/-! ## Records

A record is an object, or an array of its fields in their order. Its draft `δ` holds what has been
read so far. -/

structure Field (δ : Type) where
  name : String
  /-- The draft already has this field. -/
  filled : δ → Bool
  read : δ → Decoder δ
  /-- An array may end before this field. -/
  mayEnd : Bool

/-- A field that keeps its value in an optional place of the draft. -/
def Field.of (name : String) (d : Decoder α) (get : δ → Option α) (set : δ → α → δ)
    (mayEnd : Bool) : Field δ where
  name
  filled draft := (get draft).isSome
  read draft := fun tokens => do
    let (a, rest) ← d tokens
    return (set draft a, rest)
  mayEnd

/-- The value of the named member. A known name may be given once; the value of an unknown name is
skipped. -/
def member (fields : List (Field δ)) (draft : δ) (name : String) (tokens : List Token) :
    Except Fault (δ × List Token) :=
  match fields.find? (·.name == name), tokens with
  | some field, .colon :: rest =>
    if field.filled draft then .error .unfit else field.read draft rest
  | some field, _ => .error (if field.filled draft then .unfit else .malformed)
  | none, .colon :: rest => do return (draft, ← skip rest)
  | none, _ => .error .malformed

/-- Members up to the closing brace; every member takes a token at least. -/
def membersFrom (fields : List (Field δ)) : Nat → δ → Decoder δ
  | 0, _, _ => .error .malformed
  | _ + 1, draft, .closeObject :: rest => .ok (draft, rest)
  | steps + 1, draft, .comma :: .str (some name) :: rest => do
    let (draft, rest) ← member fields draft name rest
    membersFrom fields steps draft rest
  | _, _, _ => .error .malformed

/-- Fields of an array from the given one on, each after a separator. -/
def elementsFrom (first : Bool) : List (Field δ) → δ → Decoder δ
  | [], draft, .closeArray :: rest => .ok (draft, rest)
  | [], _, _ => .error .malformed
  | field :: fields, draft, tokens =>
    match tokens with
    | .closeArray :: rest =>
      if (field :: fields).all (·.mayEnd) then .ok (draft, rest) else .error .unfit
    | .comma :: rest => if first then .error .malformed else element field fields draft rest
    | _ => if first then element field fields draft tokens else .error .malformed
where
  element (field : Field δ) (fields : List (Field δ)) (draft : δ) : Decoder δ := fun tokens => do
    if tokens.head? = some .closeArray then .error .malformed
    let (draft, rest) ← field.read draft tokens
    elementsFrom false fields draft rest

/-- The draft of a record, and what is left before the record's end has been checked. -/
def record (fields : List (Field δ)) (start : δ) (finish : δ → Option α) : Decoder α
  | .openObject :: .closeObject :: rest => complete (start, rest)
  | .openObject :: .str (some name) :: rest => do
    let (draft, rest) ← member fields start name rest
    complete (← membersFrom fields rest.length draft rest)
  | .openObject :: _ => .error .malformed
  | .openArray :: rest => do complete (← elementsFrom true fields start rest)
  | tokens => .error (mismatch tokens)
where
  complete : δ × List Token → Except Fault (α × List Token)
    | (draft, rest) =>
      match finish draft with
      | some a => .ok (a, rest)
      | none => .error .unfit

/-! ## Whole texts -/

/-- One value and nothing after it. -/
def run (d : Decoder α) (bytes : List UInt8) : Except Fault α :=
  match d (Token.ofBytes bytes) with
  | .ok (a, []) => .ok a
  | .ok (_, _) => .error .malformed
  | .error fault => .error fault

end Decoder

end Turnstile.Json
