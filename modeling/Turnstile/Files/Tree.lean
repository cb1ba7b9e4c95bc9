import Turnstile.Files.Path

/-! A tree of files. Places are lists of names from the root; a path that is not rooted starts at
the working directory. A step through a name needs a directory to start from, so a path may fail
on its way although its last name exists. -/

namespace Turnstile

inductive FileError where
  | notFound
  | busy
  | present
  | notDirectory
  | isDirectory
  | nameTooLong
  | unusableName
deriving DecidableEq

namespace FileError

def message : FileError → String
  | notFound => "No such file or directory (os error 2)"
  | busy => "Device or resource busy (os error 16)"
  | present => "File exists (os error 17)"
  | notDirectory => "Not a directory (os error 20)"
  | isDirectory => "Is a directory (os error 21)"
  | nameTooLong => "File name too long (os error 36)"
  | unusableName => "file name contained an unexpected NUL byte"

end FileError

inductive FileNode where
  | file (bytes : List UInt8) (mode : Nat)
  | directory
deriving DecidableEq

/-- Names from the root on. -/
abbrev Place := List String

structure FileTree where
  entries : List (Place × FileNode)
  /-- The working directory. -/
  here : Place
deriving DecidableEq

namespace FileTree

/-- Nothing but the working directory. -/
def empty : FileTree := ⟨[(["work"], .directory)], ["work"]⟩

def node? (t : FileTree) (place : Place) : Option FileNode :=
  if place.isEmpty then some .directory else t.entries.lookup place

def set (t : FileTree) (place : Place) (node : FileNode) : FileTree :=
  { t with entries := (place, node) :: t.entries.filter (·.1 != place) }

def erase (t : FileTree) (place : Place) : FileTree :=
  { t with entries := t.entries.filter (·.1 != place) }

/-! ## Finding places -/

def requireDirectory (t : FileTree) (place : Place) : Except FileError Unit :=
  match t.node? place with
  | some .directory => .ok ()
  | some (.file _ _) => .error .notDirectory
  | none => .error .notFound

/-- The longest name, in bytes. -/
def nameBound : Nat := 255

def checkName (name : String) : Except FileError Unit :=
  if nameBound < name.utf8ByteSize then .error .nameTooLong else .ok ()

def walk (t : FileTree) : Place → List String → Except FileError Place
  | place, [] => .ok place
  | place, piece :: rest => do
    t.requireDirectory place
    if piece.isEmpty || piece == "." then t.walk place rest
    else if piece == ".." then t.walk place.dropLast rest
    else do
      checkName piece
      t.walk (place ++ [piece]) rest

/-- Where a path leads. -/
structure Target where
  /-- The directory that holds it, or the directory itself when there is no name. -/
  directory : Place
  name : Option String
  /-- The path ends in a slash. -/
  slashed : Bool

def Target.place (g : Target) : Place := g.directory ++ g.name.toList

def start (t : FileTree) (path : String) : Place := if Path.isRooted path then [] else t.here

def locate (t : FileTree) (path : String) : Except FileError Target := do
  if path.isEmpty then .error .notFound
  if path.toList.contains (Char.ofNat 0) then .error .unusableName
  let pieces := Path.pieces path
  let kept := (pieces.reverse.dropWhile (·.isEmpty)).reverse
  let slashed := kept.length < pieces.length
  match kept.getLast? with
  | none => return ⟨[], none, slashed⟩
  | some last =>
    if last == "." || last == ".." then
      return ⟨← t.walk (t.start path) kept, none, slashed⟩
    else
      let directory ← t.walk (t.start path) kept.dropLast
      t.requireDirectory directory
      checkName last
      return ⟨directory, some last, slashed⟩

/-! ## Operations -/

def contents (t : FileTree) (path : String) : Except FileError (List UInt8) := do
  let target ← t.locate path
  match t.node? target.place with
  | some (.file bytes _) => if target.slashed then .error .notDirectory else return bytes
  | some .directory => .error .isDirectory
  | none => .error .notFound

def isDirectory (t : FileTree) (path : String) : Bool :=
  match t.locate path with
  | .ok target => t.node? target.place == some .directory
  | .error _ => false

def makeDirectory (t : FileTree) (path : String) : Except FileError FileTree := do
  let target ← t.locate path
  match t.node? target.place with
  | some _ => .error .present
  | none => return t.set target.place .directory

/-- Settles for a directory that is there already. -/
def ensureDirectory (t : FileTree) (path : String) : Except FileError Unit × FileTree :=
  match t.makeDirectory path with
  | .ok t => (.ok (), t)
  | .error e => (if t.isDirectory path then .ok () else .error e, t)

/-- The directory and those above it that are missing. A path has fewer parents than characters,
which bounds the steps; directories made before a failure stay. -/
def makeDirectoriesFrom (t : FileTree) : Nat → String → Except FileError Unit × FileTree
  | 0, _ => (.ok (), t)
  | steps + 1, path =>
    if path.isEmpty then (.ok (), t)
    else match t.ensureDirectory path with
      | (.error .notFound, t) =>
        match Path.parent? path with
        | none => (.error .notFound, t)
        | some above =>
          match t.makeDirectoriesFrom steps above with
          | (.ok (), t) => t.ensureDirectory path
          | failed => failed
      | settled => settled

def makeDirectories (t : FileTree) (path : String) : Except FileError Unit × FileTree :=
  t.makeDirectoriesFrom (path.length + 1) path

/-- An empty file where there was nothing. -/
def create (t : FileTree) (path : String) (mode : Nat) : Except FileError FileTree := do
  let target ← t.locate path
  if target.slashed || target.name.isNone then .error .isDirectory
  match t.node? target.place with
  | some _ => .error .present
  | none => return t.set target.place (.file [] mode)

/-- Bytes at the end of a file. -/
def append (t : FileTree) (path : String) (bytes : List UInt8) : Except FileError FileTree := do
  let target ← t.locate path
  match t.node? target.place with
  | some (.file old mode) => return t.set target.place (.file (old ++ bytes) mode)
  | some .directory => .error .isDirectory
  | none => .error .notFound

/-- The file gets another path; what was a file there is gone, in one step. -/
def rename (t : FileTree) (path newPath : String) : Except FileError FileTree := do
  let source ← t.locate path
  let target ← t.locate newPath
  if target.name.isNone then .error .busy
  match t.node? source.place with
  | some (.file bytes mode) =>
    if target.slashed then .error .notDirectory
    if t.node? target.place == some .directory then .error .isDirectory
    return (t.erase source.place).set target.place (.file bytes mode)
  | some .directory => .error .isDirectory
  | none => .error .notFound

def remove (t : FileTree) (path : String) : Except FileError FileTree := do
  let target ← t.locate path
  match t.node? target.place with
  | some (.file _ _) => return t.erase target.place
  | some .directory => .error .isDirectory
  | none => .error .notFound

end FileTree

end Turnstile
