import Turnstile.Files.Replace
import Turnstile.Record.Format
import Turnstile.Store.Basic

/-! The backing file of a store. Loading replaces the records and leaves the requests in flight;
saving writes a copy of the records stamped with the moment, and does not change the store. -/

namespace Turnstile.Store

def missingPath : StoreError := .configuration "no backing file configured for the record store"

/-- A missing file is a first run: the records are then empty. -/
def load (s : Store) (files : FileTree) (now : Moment) : Outcome Unit :=
  match s.path with
  | none => (.error missingPath, s)
  | some path =>
    match files.contents path with
    | .error .notFound => (.ok (), { s with records := .empty now })
    | .error e => (.error (.io ("failed to read " ++ path ++ ": " ++ e.message)), s)
    | .ok bytes =>
      match RecordSet.read? now bytes with
      | some records => (.ok (), { s with records })
      | none => (.error (.decode path), s)

/-- The bytes that a save at that moment writes. -/
def payload (s : Store) (now : Moment) : List UInt8 :=
  Utf8.encode { s.records with updatedAt := now }.toText

/-- `tag` makes the name of the temporary file unused. -/
def save (s : Store) (files : FileTree) (now : Moment) (tag : String) :
    Except StoreError Unit × FileTree :=
  match s.path with
  | none => (.error missingPath, files)
  | some path =>
    let replacement : Replacement := ⟨path, s.payload now, tag⟩
    match replacement.run files with
    | (.ok (), files) => (.ok (), files)
    | (.error (.preparing e), files) =>
      (.error (.io ("failed to prepare " ++ replacement.directory ++ ": " ++ e.message)), files)
    | (.error (.writing e), files) =>
      (.error (.io ("failed to write " ++ path ++ ": " ++ e.message)), files)

end Turnstile.Store
