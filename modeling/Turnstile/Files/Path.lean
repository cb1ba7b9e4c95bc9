import Turnstile.Text.Split

/-! Path texts. A path is cut at its slashes; empty pieces do not count, and a single dot counts
only at the start of a relative path. -/

namespace Turnstile.Path

/-- The pieces between slashes, empty ones included; a text without a slash is one piece. -/
def pieces (path : String) : List String := (Text.splitOn '/' path.toList).map String.ofList

def isRooted (path : String) : Bool := path.toList.head? == some '/'

/-- Whether the piece at that place is a component. -/
def counts (index : Nat) (piece : String) : Bool :=
  !piece.isEmpty && (piece != "." || index == 0)

/-- The pieces up to the last component, itself included. -/
def trimmedPieces (path : String) : List String :=
  let indexed := (pieces path).zipIdx
  ((indexed.reverse.dropWhile fun p => !counts p.2 p.1).reverse).map (·.1)

/-- The text before the last component; `none` for a path without components. -/
def parent? (path : String) : Option String :=
  let kept := trimmedPieces path
  if kept.isEmpty then none
  else
    let before := trimmedPieces ("/".intercalate kept.dropLast)
    if before.isEmpty then some (if isRooted path then "/" else "")
    else some ("/".intercalate before)

/-- The last component, unless it stands for a directory relative to another. -/
def fileName? (path : String) : Option String :=
  match (trimmedPieces path).getLast? with
  | some name => if name == "." || name == ".." then none else some name
  | none => none

/-- The path of a name in a directory. -/
def join (directory name : String) : String :=
  if isRooted name || directory.isEmpty then name
  else if directory.toList.getLast? == some '/' then directory ++ name
  else directory ++ "/" ++ name

end Turnstile.Path
