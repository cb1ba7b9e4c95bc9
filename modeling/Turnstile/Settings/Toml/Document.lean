import Turnstile.Settings.Toml.Scalar

/-! Whole TOML documents. The text is first read into statements, which are then carried out in
order. A table may be defined once: by a header, by dotted names, or inline; only tables that
headers merely passed through may still get a header of their own. -/

namespace Turnstile.Toml

/-! ## Names -/

def isBare (c : Char) : Bool := c.isAlphanum || c == '_' || c == '-'

def dropSpaces (cs : List Char) : List Char := cs.dropWhile isSpace

def readName : Reader String := fun cs =>
  match cs with
  | '"' :: rest => readBasic (rest.length + 1) [] rest
  | '\'' :: rest => readLiteral rest
  | cs =>
    let name := cs.takeWhile isBare
    if name.isEmpty then none else some (String.ofList name, cs.drop name.length)

/-- Dotted names, lists and inline tables may be nested less deep than this. -/
def nestingBound : Nat := 80

/-- Names with points between them, at most so many. -/
def readNamesUpTo : Nat → Reader (List String)
  | 0, _ => none
  | more + 1, cs => do
    let (name, rest) ← readName (dropSpaces cs)
    match dropSpaces rest with
    | '.' :: rest =>
      let (names, rest) ← readNamesUpTo more rest
      return (name :: names, rest)
    | rest => return ([name], rest)

def readNames : Reader (List String) := readNamesUpTo (nestingBound - 1)

/-! ## Nodes -/

/-- How a table came to be. -/
inductive Origin where
  /-- By its own header, or as the document itself. -/
  | header
  /-- Passed through by a header. -/
  | passed
  /-- By dotted names. -/
  | dotted
deriving DecidableEq

inductive Node where
  /-- A value that is complete. -/
  | value (v : Setting)
  | table (origin : Origin) (entries : List (String × Node))
  /-- The tables of a repeated header, last first. -/
  | tables (all : List (List (String × Node)))

namespace Node

def find? (entries : List (String × Node)) (name : String) : Option Node := entries.lookup name

def put (name : String) (node : Node) : List (String × Node) → List (String × Node)
  | [] => [(name, node)]
  | (n, old) :: rest => if n == name then (n, node) :: rest else (n, old) :: put name node rest

def toSetting : Node → Setting
  | value v => v
  | table _ entries => .table (entriesToSettings entries)
  | tables all => .list (allToSettings all [])
where
  entriesToSettings : List (String × Node) → List (String × Setting)
    | [] => []
    | (name, node) :: rest => (name, toSetting node) :: entriesToSettings rest
  allToSettings : List (List (String × Node)) → List Setting → List Setting
    | [], seen => seen
    | entries :: rest, seen => allToSettings rest (.table (entriesToSettings entries) :: seen)

/-- Sets a value under dotted names. The table that gets the value has to be a dotted one, or the
one that the names start from, for which `mayHold` is true; tables on the way to it may also be
such that headers passed through or repeated. -/
def assign (v : Setting) (mayHold : Bool) :
    List String → List (String × Node) → Option (List (String × Node))
  | [], _ => none
  | [name], entries =>
    match find? entries name with
    | none => if mayHold then some (put name (value v) entries) else none
    | some _ => none
  | name :: names, entries =>
    match find? entries name with
    | none => (assign v true names []).map fun inner => put name (table .dotted inner) entries
    | some (table .dotted inner) =>
      (assign v true names inner).map fun inner => put name (table .dotted inner) entries
    | some (table .passed inner) =>
      (assign v false names inner).map fun inner => put name (table .passed inner) entries
    | some (tables (last :: before)) =>
      (assign v false names last).map fun last => put name (tables (last :: before)) entries
    | some _ => none

/-- Changes the table at the end of a path of headers; of repeated tables the last is meant. -/
def modifyAt (change : List (String × Node) → Option (List (String × Node))) :
    List String → List (String × Node) → Option (List (String × Node))
  | [], entries => change entries
  | name :: names, entries =>
    match find? entries name with
    | none => (modifyAt change names []).map fun inner => put name (table .passed inner) entries
    | some (table origin inner) =>
      (modifyAt change names inner).map fun inner => put name (table origin inner) entries
    | some (tables (last :: before)) =>
      (modifyAt change names last).map fun last => put name (tables (last :: before)) entries
    | some _ => none

/-- A header for a table. -/
def openTable (name : String) (entries : List (String × Node)) : Option (List (String × Node)) :=
  match find? entries name with
  | none => some (put name (table .header []) entries)
  | some (table .passed inner) => some (put name (table .header inner) entries)
  | some _ => none

/-- A header for one more of several tables. -/
def openNext (name : String) (entries : List (String × Node)) : Option (List (String × Node)) :=
  match find? entries name with
  | none => some (put name (tables [[]]) entries)
  | some (tables all) => some (put name (tables ([] :: all)) entries)
  | some _ => none

end Node

/-! ## Values -/

/-- The rest after blanks, line ends and comments. -/
def dropGaps : Nat → List Char → Option (List Char)
  | 0, cs => some cs
  | more + 1, cs =>
    match dropSpaces cs with
    | '#' :: rest =>
      let comment := rest.takeWhile fun c => c != '\n' && c != '\r'
      if comment.all isPlain then
        match rest.drop comment.length with
        | [] => some []
        | rest => (lineEnd? rest).bind (dropGaps more)
      else none
    | rest =>
      match lineEnd? rest with
      | some rest => dropGaps more rest
      | none => some rest

mutual

/-- A value; lists and inline tables may be nested `levels` deep, and every step takes a character
at least. -/
def readValue (levels : Nat) : Nat → Reader Setting
  | 0, _ => none
  | steps + 1, cs =>
    match cs, levels with
    | '"' :: _, _ | '\'' :: _, _ => (readString cs).map fun (s, rest) => (.text s, rest)
    | '[' :: rest, levels + 1 => readItems levels steps [] rest
    | '\x7b' :: rest, levels + 1 =>
      match dropSpaces rest with
      | '\x7d' :: rest => some (.table [], rest)
      | rest => readPairs levels steps [] rest
    | cs, _ => readWord cs

/-- Items up to the closing bracket; a comma may stand after the last. -/
def readItems (levels : Nat) : Nat → List Setting → Reader Setting
  | 0, _, _ => none
  | steps + 1, seen, cs => do
    match ← dropGaps cs.length cs with
    | ']' :: rest => return (.list seen.reverse, rest)
    | cs =>
      let (v, rest) ← readValue levels steps cs
      match ← dropGaps rest.length rest with
      | ',' :: rest => readItems levels steps (v :: seen) rest
      | ']' :: rest => return (.list (v :: seen).reverse, rest)
      | _ => none

/-- Pairs up to the closing brace, on one line. -/
def readPairs (levels : Nat) : Nat → List (String × Node) → Reader Setting
  | 0, _, _ => none
  | steps + 1, entries, cs => do
    let (names, rest) ← readNames cs
    let rest ← mark? '=' rest
    let (v, rest) ← readValue levels steps (dropSpaces rest)
    let entries ← Node.assign v true names entries
    match dropSpaces rest with
    | ',' :: rest => readPairs levels steps entries rest
    | '\x7d' :: rest => return ((Node.table .header entries).toSetting, rest)
    | _ => none

end

/-! ## Statements -/

inductive Statement where
  | header (names : List String)
  | next (names : List String)
  | assign (names : List String) (v : Setting)

def readStatement (cs : List Char) : Option (Statement × List Char) :=
  match cs with
  | '[' :: '[' :: rest => do
    let (names, rest) ← readNames rest
    return (.next names, ← mark? ']' (← mark? ']' rest))
  | '[' :: rest => do
    let (names, rest) ← readNames rest
    return (.header names, ← mark? ']' rest)
  | cs => do
    let (names, rest) ← readNames cs
    let (v, rest) ← readValue (nestingBound - 1) (2 * cs.length) (dropSpaces (← mark? '=' rest))
    return (.assign names v, rest)

/-- A statement is alone on its lines, a comment aside. -/
def endsLine (cs : List Char) : Bool :=
  match dropSpaces cs with
  | [] | '#' :: _ => true
  | rest => (lineEnd? rest).isSome

/-- Every statement takes a character at least. -/
def readStatements : Nat → List Char → Option (List Statement)
  | 0, _ => none
  | more + 1, cs => do
    match ← dropGaps cs.length cs with
    | [] => return []
    | cs =>
      let (statement, rest) ← readStatement cs
      if !endsLine rest then none
      return statement :: (← readStatements more rest)

/-- The document so far, and the header that assignments belong to. -/
structure Building where
  entries : List (String × Node)
  current : List String

def Building.step (b : Building) : Statement → Option Building
  | .header names => do
    let entries ← Node.modifyAt (Node.openTable (names.getLastD "")) names.dropLast b.entries
    return ⟨entries, names⟩
  | .next names => do
    let entries ← Node.modifyAt (Node.openNext (names.getLastD "")) names.dropLast b.entries
    return ⟨entries, names⟩
  | .assign names v => do
    return ⟨← Node.modifyAt (Node.assign v true names) b.current b.entries, b.current⟩

/-- The entries of a document. -/
def parse? (s : String) : Option (List (String × Setting)) := do
  let cs := s.toList
  let statements ← readStatements (cs.length + 1) cs
  let built ← statements.foldlM Building.step ⟨[], []⟩
  return Node.toSetting.entriesToSettings built.entries

end Turnstile.Toml
