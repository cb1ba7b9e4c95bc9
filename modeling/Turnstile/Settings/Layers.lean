import Turnstile.Settings.Value
import Turnstile.Text.Split

/-! Settings from several sources, one laid over the other. Names compare in lower case; tables are
merged entry by entry, and any other value takes the place of what was there. A name at the top of
a source may be a path into tables. -/

namespace Turnstile.Setting

/-! ## Tables -/

def entries : Setting → List (String × Setting)
  | table entries => entries
  | _ => []

def get? (v : Setting) (name : String) : Option Setting := v.entries.lookup name

/-- The entries with one of them set, in its old place if it has one. -/
def putEntry (name : String) (v : Setting) : List (String × Setting) → List (String × Setting)
  | [] => [(name, v)]
  | (n, w) :: rest => if n == name then (n, v) :: rest else (n, w) :: putEntry name v rest

/-- What is not a table becomes one when an entry is set in it. -/
def put (target : Setting) (name : String) (v : Setting) : Setting :=
  table (putEntry name v target.entries)

/-- Lays a value over a target under a name. -/
def overlay (target : Setting) (name : String) : Setting → Setting
  | table entries =>
    let name := Text.toLower name
    target.put name (overlayAll ((target.get? name).getD (table [])) entries)
  | v => target.put (Text.toLower name) v
where
  overlayAll (target : Setting) : List (String × Setting) → Setting
    | [] => target
    | (name, v) :: rest => overlayAll (overlay target name v) rest

/-! ## Paths -/

inductive Step where
  | name (s : String)
  | index (i : Int)
deriving DecidableEq

def isNameChar (c : Char) : Bool := c.isAlphanum || c == '_' || c == '-' || c == ' '

/-- A place in brackets. -/
def readIndex? (cs : List Char) : Option (Int × List Char) :=
  let digits := cs.takeWhile (· != ']')
  match cs.drop digits.length with
  | _ :: rest => (readInt? (String.ofList digits)).map (·, rest)
  | [] => none

/-- Steps after the first: a point and a name, or a place in brackets. Each takes a character at
least. -/
def readSteps : Nat → List Char → Option (List Step)
  | _, [] => some []
  | 0, _ => none
  | more + 1, '.' :: rest =>
    let name := rest.takeWhile isNameChar
    if name.isEmpty then none
    else (readSteps more (rest.drop name.length)).map (.name (String.ofList name) :: ·)
  | more + 1, '[' :: rest =>
    match readIndex? rest with
    | some (i, rest) => (readSteps more rest).map (.index i :: ·)
    | none => none
  | _ + 1, _ => none

/-- The steps that a name spells; a name that spells none is one step. -/
def readPath (s : String) : List Step :=
  let cs := s.toList
  let first := cs.takeWhile isNameChar
  let rest := cs.drop first.length
  match if first.isEmpty then none else readSteps rest.length rest with
  | some steps => .name (String.ofList first) :: steps
  | none => [.name s]

def items : Setting → List Setting
  | list items => items
  | _ => []

/-- The place of an index, which counts from the end if it is negative. -/
def placeOf? (size : Nat) (i : Int) : Option Nat :=
  if 0 ≤ i then some i.toNat else if i.natAbs ≤ size then some (size - i.natAbs) else none

/-- Lists longer than this are not made to reach a place. -/
def longest : Nat := 65536

/-- Sets a value at the end of a path. -/
def setAt (target : Setting) : List Step → Setting → Setting
  | [], _ => target
  | [.name s], v => overlay target s v
  | .name s :: steps, v =>
    let s := Text.toLower s
    target.put s (setAt ((target.get? s).getD null) steps v)
  | .index i :: steps, v =>
    match placeOf? target.items.length i with
    | some place =>
      if longest < place then target
      else
        let padded := target.items ++ List.replicate (place + 1 - target.items.length) null
        let inner := padded.getD place null
        list (padded.set place (if steps.isEmpty then v else setAt inner steps v))
    | none => target

/-- Lays a source over what the earlier ones have set. -/
def layOver (base : Setting) (source : List (String × Setting)) : Setting :=
  source.foldl (fun base (name, v) => setAt base (readPath name) v) base

end Turnstile.Setting
