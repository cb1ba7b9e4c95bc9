import Turnstile.Files.Tree
import Turnstile.Json.Tree
import Turnstile.Settings.Layers
import Turnstile.Settings.Toml.Document

/-! Where settings come from: files in one of two formats, and the environment. -/

namespace Turnstile.Setting

/-! ## Files -/

inductive Format where
  | toml
  | json
deriving DecidableEq

namespace Format

def ending : Format → String
  | toml => "toml"
  | json => "json"

def all : List Format := [toml, json]

/-- Lists and objects in a JSON file may be nested less deep than this. -/
def depthBound : Nat := 128

/-- The settings that a text holds; at its top there has to be a table. -/
def parse? (f : Format) (contents : String) : Option (List (String × Setting)) :=
  match f with
  | toml => Toml.parse? contents
  | json =>
    match Json.Value.read? depthBound (Utf8.encode contents) with
    | some (.obj members) => some (ofJson.ofMembers members)
    | _ => none

/-- The format that the name of a file ends in. -/
def ofPath? (path : String) : Option Format :=
  (Path.fileName? path).bind fun name =>
    match (Text.splitOn '.' name.toList).reverse with
    | last :: before :: more =>
      -- a name that only starts with a point has no ending
      if before.isEmpty && more.isEmpty then none
      else all.find? fun f => f.ending == String.ofList last
    | _ => none

end Format

/-- A byte order mark at the start does not count, and bytes that spell no text are replaced. -/
def textOf (bytes : List UInt8) : String :=
  match bytes with
  | 0xEF :: 0xBB :: 0xBF :: rest => Utf8.decodeLossy rest
  | bytes => Utf8.decodeLossy bytes

def isFile (files : FileTree) (path : String) : Bool := (files.contents path).toOption.isSome

def withEnding (name : String) (f : Format) : String := name ++ "." ++ f.ending

/-- The file of that name, or of that name with an ending. -/
def locateFile? (files : FileTree) (name : String) : Option (String × Format) :=
  if isFile files name then (Format.ofPath? name).map (name, ·)
  else (Format.all.map fun f => (withEnding name f, f)).find? fun place => isFile files place.1

/-- The settings of a file. One that is not required may be missing, but not broken. -/
def ofFile (files : FileTree) (required : Bool) (name : String) :
    Option (List (String × Setting)) :=
  match locateFile? files name with
  | none => if required then none else some []
  | some (path, f) =>
    match files.contents path with
    | .ok bytes => f.parse? (textOf bytes)
    | .error _ => if required then none else some []

/-! ## Environment -/

/-- Variables for settings start with this, in any case. -/
def environmentStem : String := "app__"

/-- Two underscores divide the names of a path. -/
def dividePath : List Char → List Char
  | '_' :: '_' :: rest => '.' :: dividePath rest
  | c :: rest => c :: dividePath rest
  | [] => []

def ofVariable? (name value : String) : Option (String × Setting) :=
  let cs := (Text.toLower name).toList
  if environmentStem.toList.isPrefixOf cs then
    some (String.ofList (dividePath (cs.drop environmentStem.length)), ofEnvironment value)
  else none

/-- The settings that the environment holds. -/
def ofVariables (environment : List (String × String)) : List (String × Setting) :=
  environment.filterMap fun (name, value) => ofVariable? name value

end Turnstile.Setting
