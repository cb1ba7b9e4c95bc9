import Turnstile.Files.Tree

/-! Replacing a file as a whole. The new bytes go to a temporary file beside the target, which then
takes the target's path in one step: until that step the target holds what it held before, and
after it all of the new bytes. -/

namespace Turnstile

/-- What a replacement is about. -/
structure Replacement where
  target : String
  bytes : List UInt8
  /-- Makes the name of the temporary file one that is not in use. -/
  tag : String

namespace Replacement

def directory (r : Replacement) : String :=
  match Path.parent? r.target with
  | some above => if above.isEmpty then "." else above
  | none => "."

def temporary (r : Replacement) : String :=
  Path.join r.directory ("." ++ (Path.fileName? r.target).getD "records" ++ "." ++ r.tag ++ ".tmp")

/-- Read and written by its owner only. -/
def mode : Nat := 0o600

inductive Step where
  | makeDirectories
  | create
  | write
  | sync
  | rename
deriving DecidableEq

/-- The steps after the directories have been made. -/
def steps : List Step := [.create, .write, .sync, .rename]

/-- Carries out one step; the second part is the tree after it. -/
def perform (r : Replacement) (files : FileTree) : Step → Except FileError Unit × FileTree
  | .makeDirectories => files.makeDirectories r.directory
  | .create => attempt files (files.create r.temporary mode)
  | .write => attempt files (files.append r.temporary r.bytes)
  | .sync => (.ok (), files)
  | .rename => attempt files (files.rename r.temporary r.target)
where
  attempt (files : FileTree) : Except FileError FileTree → Except FileError Unit × FileTree
    | .ok after => (.ok (), after)
    | .error e => (.error e, files)

/-- Performs the steps until one fails. -/
def performAll (r : Replacement) : List Step → FileTree → Except FileError Unit × FileTree
  | [], files => (.ok (), files)
  | step :: rest, files =>
    match r.perform files step with
    | (.ok (), files) => r.performAll rest files
    | (.error e, files) => (.error e, files)

/-- Removes the temporary file, if it is there. -/
def cleanUp (r : Replacement) (files : FileTree) : FileTree :=
  match files.remove r.temporary with
  | .ok files => files
  | .error _ => files

inductive Failure where
  | preparing (e : FileError)
  | writing (e : FileError)
deriving DecidableEq

/-- A failure leaves the target as it was and no temporary file. -/
def run (r : Replacement) (files : FileTree) : Except Failure Unit × FileTree :=
  match r.perform files .makeDirectories with
  | (.error e, files) => (.error (.preparing e), files)
  | (.ok (), files) =>
    match r.performAll steps files with
    | (.ok (), files) => (.ok (), files)
    | (.error e, files) => (.error (.writing e), r.cleanUp files)

end Replacement

end Turnstile
