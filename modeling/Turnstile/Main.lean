import Std.Time.DateTime.Timestamp
import Turnstile.Command.Wording
import Turnstile.Record.Identity
import Turnstile.Time.Epoch

/-! The program. It looks at the files that a run can touch, runs the command line against what it
saw, writes back what changed, and prints. -/

namespace Turnstile.Program

/-! ## What a run finds -/

/-- The variables of the process, which end in zero bytes. -/
def environment : IO (List (String × String)) := do
  let bytes ← IO.FS.readBinFile "/proc/self/environ"
  let settings := Text.splitOn (Char.ofNat 0) (Utf8.decodeLossy bytes.toList).toList
  return settings.map fun cs =>
    let (name, value) := Text.splitAt '=' cs
    (String.ofList name, String.ofList (value.getD []))

/-- Bytes up to the first line end or the end of the input. -/
partial def lineOf (input : IO.FS.Stream) (before : List UInt8) : IO (List UInt8) := do
  match (← input.read 1).toList with
  | [] => return before.reverse
  | bytes =>
    if bytes.contains 0x0A then return before.reverse
    else lineOf input (bytes.reverse ++ before)

def random (count : Nat) : IO (List UInt8) := do
  return (← IO.getRandomBytes (.ofNat count)).toList

def moment : IO Moment := do
  let now ← Std.Time.Timestamp.now
  return (Moment.afterEpoch? now.val.second.toInt.toNat now.val.nano.val.toNat).getD .epoch

def draw : IO Draw := do
  return {
    now := ← moment
    userId := Identity.recordId "usr" (← random Identity.recordIdBytes)
    keyId := Identity.recordId "key" (← random Identity.recordIdBytes)
    credential := Identity.credential Identity.credentialStem (← random Identity.credentialBytes)
    salt := ← random Argon2.saltBytes
    tag := Identity.token (← random Identity.credentialBytes)
    requestId := "" }

def surroundings (line : Except LineFault CommandLine) : IO Surroundings := do
  let asks := match line with
    | .ok line => line.command.wantsSecret
    | .error _ => false
  let input ← if asks then
      IO.eprint "Password: "
      lineOf (← IO.getStdin) []
    else pure []
  return { environment := ← environment, input, draw := ← draw }

/-! ## Files -/

def pathOf (place : Place) : String := "/" ++ "/".intercalate place

/-- What stands at a place, if anything does. -/
def look (place : Place) : IO (Option FileNode) := do
  try
    return some (.file (← IO.FS.readBinFile (pathOf place)).toList Replacement.mode)
  catch
    | .noFileOrDirectory .. => return none
    | .inappropriateType _ code _ =>
      return if code = 21 || code = 0 - 21 then some .directory else none
    | e => throw e

/-- The places that a path leads through, itself the last. -/
def placesOf (here : Place) (path : String) : List Place :=
  let start : Place := if Path.isRooted path then [] else here
  ((Path.pieces path).foldl (fun (acc : List Place × Place) piece =>
    let next : Place :=
      if piece.isEmpty || piece == "." then acc.2
      else if piece == ".." then acc.2.dropLast
      else acc.2 ++ [piece]
    (next :: acc.1, next)) ([], start)).1.reverse

/-- The tree with what stands at the places that a path leads through. -/
def see (files : FileTree) (path : String) : IO FileTree :=
  (placesOf files.here path).foldlM (fun files place => do
    match ← look place with
    | some node => return files.set place node
    | none => return files) files

def seeAll (files : FileTree) (paths : List String) : IO FileTree := paths.foldlM see files

/-- The working directory and nothing in it. -/
def atHome : IO FileTree := do
  let here := (Path.pieces (toString (← IO.currentDir))).filter (!·.isEmpty)
  return ⟨[(here, .directory)], here⟩

/-- Makes one file or directory what it is in the tree, a file in one step. -/
def writeNode (tag : String) (place : Place) : FileNode → IO Unit
  | .directory => IO.FS.createDirAll (pathOf place)
  | .file bytes _ => do
    let temporary := pathOf place ++ "." ++ tag
    IO.FS.createDirAll (pathOf place.dropLast)
    IO.FS.writeBinFile temporary (ByteArray.mk bytes.toArray)
    IO.setAccessRights temporary { user := { read := true, write := true } }
    IO.FS.rename temporary (pathOf place)

def writeBack (tag : String) (before after : FileTree) : IO Unit :=
  after.entries.forM fun (place, node) => do
    if before.node? place != some node then writeNode tag place node

/-! ## The run -/

/-- The files that the run can touch, as they are. -/
def filesFor (line : Except LineFault CommandLine) (s : Surroundings) : IO FileTree := do
  match line with
  | .error _ => atHome
  | .ok line =>
    let files ← seeAll (← atHome) (Config.sourcePaths line.config)
    match Config.load files line.config s.environment with
    | none => return files
    | some c => see files (Store.normalPath (c.dataFile s.environment))

def run (words : List String) : IO UInt32 := do
  let line := CommandLine.read words
  let s ← surroundings line
  let files ← filesFor line s
  let (result, after) := CommandLine.run words s files
  writeBack s.draw.tag files after
  match result with
  | .ok text => do
    IO.print text
    if let .ok line := line then line.command.remark?.forM IO.eprintln
    return 0
  | .error fault => do
    IO.eprintln fault.wording
    return fault.status

end Turnstile.Program

def main (words : List String) : IO UInt32 := Turnstile.Program.run words
