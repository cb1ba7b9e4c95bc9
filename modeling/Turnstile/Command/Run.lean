import Turnstile.Command.Line
import Turnstile.Password.Argon2Hasher
import Turnstile.Service.World
import Turnstile.Settings.Config
import Turnstile.Settings.Host
import Turnstile.Store.Keys
import Turnstile.Store.Login

/-! What a run of the program does. The commands work on the data file itself: they load it, change
the records, save it and print what came of it. A command that fails prints nothing, and changes no
file before it saves. -/

namespace Turnstile

/-- What a run finds. -/
structure Surroundings where
  environment : List (String × String)
  /-- What can be read from the standard input. -/
  input : List UInt8
  draw : Draw

inductive RunFault where
  | line (fault : LineFault)
  | settings
  /-- The host of the server is not an address. -/
  | host
  | unreadableInput
  /-- No user has that name or id. -/
  | owner (asked : String)
  | store (e : StoreError)
deriving DecidableEq

namespace RunFault

/-- The wording of the faults that have one of their own. -/
def message? : RunFault → Option String
  | unreadableInput => some "stream did not contain valid UTF-8"
  | owner asked => some ("no user named or identified by '" ++ asked ++ "'")
  | store e => some e.message
  | line _ | settings | host => none

end RunFault

/-- A command prints a text or fails, and leaves files. -/
abbrev CommandResult := Except RunFault String × FileTree

/-- The first line of an input, without its end. -/
def firstLine (input : List UInt8) : List UInt8 :=
  let line := input.takeWhile (· != 0x0A)
  (line.reverse.dropWhile (· == 0x0D)).reverse

namespace Surroundings

/-- A secret from the line, else from the input. -/
def secret (s : Surroundings) : Option String → Except RunFault String
  | some password => .ok password
  | none =>
    match Utf8.decode? (firstLine s.input) with
    | some password => .ok password
    | none => .error .unreadableInput

end Surroundings

/-! ## The data file -/

namespace Config

def cost (c : Config) : Argon2.Cost := ⟨c.memoryKib, c.iterations, c.parallelism⟩

def hasher (c : Config) : Except StoreError Hasher := Hasher.argon2 c.cost

/-- The store that the data file holds, and the hasher of the cost configured. -/
def openStore (c : Config) (s : Surroundings) (files : FileTree) :
    Except StoreError (Hasher × Store) := do
  let hasher ← c.hasher
  match (Store.new (some (c.dataFile s.environment)) s.draw.now).load files s.draw.now with
  | (.ok (), store) => return (hasher, store)
  | (.error e, _) => throw e

end Config

/-- Saves the store, and prints the text if that went well. -/
def Store.saveAndPrint (store : Store) (draw : Draw) (text : String) (files : FileTree) :
    CommandResult :=
  match store.save files draw.now draw.tag with
  | (.ok (), files) => (.ok text, files)
  | (.error e, files) => (.error (.store e), files)

/-! ## Commands -/

namespace Command

/-- The hash of a password, for a record that is written by hand. -/
def hash (c : Config) (s : Surroundings) (password : Option String) : Except RunFault String := do
  let password ← s.secret password
  let made ← (do (← c.hasher).hash s.draw.salt password).mapError .store
  return made ++ "\n"

/-- The store with one user more. -/
def withUser (c : Config) (s : Surroundings) (a : UserAddition) (files : FileTree) :
    Except RunFault (User × Store) := do
  let password ← s.secret a.password
  let (hasher, store) ← (c.openStore s files).mapError .store
  let (made, store) := store.hashPassword hasher s.draw.salt password
  let user : User := ⟨"", a.username, ← made.mapError .store, a.role, false, s.draw.now⟩
  let (stored, store) := store.upsertUser s.draw.userId s.draw.now user
  return (← stored.mapError .store, store)

def userLine (u : User) : String := u.id ++ "\t" ++ u.username ++ "\t" ++ u.role.label ++ "\n"

/-- The id of the user that is meant: a name wins over an id. No user means no owner. -/
def ownerId (store : Store) : Option String → Except RunFault String
  | none => .ok ""
  | some asked =>
    match store.findUserByName? asked <|> store.findUser? asked with
    | some user => .ok user.id
    | none => .error (.owner asked)

/-- The store with one key more. -/
def withKey (c : Config) (s : Surroundings) (a : KeyAddition) (files : FileTree) :
    Except RunFault (ApiKey × Store) := do
  let (_, store) ← (c.openStore s files).mapError .store
  let userId ← ownerId store a.owner
  let key : ApiKey := { ApiKey.fresh (a.credential.getD s.draw.credential) a.label s.draw.now with
    userId
    totalLimit := a.totalLimit
    concurrencyLimit := a.concurrencyLimit
    compatibilityMode := a.compatibilityMode
    enabled := !a.disabled }
  let (stored, store) := store.upsertKey s.draw.keyId s.draw.now key
  return (← stored.mapError .store, store)

def truthWord (b : Bool) : String := if b then "true" else "false"

/-- A limit of zero means no limit. -/
def limitWord (n : Nat) : String := if n = 0 then "unlimited" else n.repr

def row (cells : List String) : String := "\t".intercalate cells ++ "\n"

def keyRow (store : Store) (k : ApiKey) : String :=
  row [k.id, k.label, ((store.findUser? k.userId).map (·.username)).getD "-",
    truthWord k.enabled, k.usedCount.toNat.repr,
    limitWord k.totalLimit.toNat, limitWord k.concurrencyLimit.toNat,
    truthWord k.compatibilityMode]

def keyTable (store : Store) : String :=
  row ["ID", "LABEL", "USER", "ENABLED", "USED", "LIMIT", "CONCURRENCY", "COMPAT"] ++
    String.join (store.apiKeys.map (keyRow store))

/-- All that is done before the server listens. -/
def prepareServer (c : Config) (s : Surroundings) (files : FileTree) : Except RunFault String := do
  let _ ← (c.openStore s files).mapError .store
  if Host.isAddress c.host then return "" else throw .host

def run (command : Command) (c : Config) (s : Surroundings) (files : FileTree) : CommandResult :=
  match command with
  | .serve => (prepareServer c s files, files)
  | .hashPassword password => (hash c s password, files)
  | .addUser a =>
    match withUser c s a files with
    | .ok (user, store) => store.saveAndPrint s.draw (userLine user) files
    | .error fault => (.error fault, files)
  | .addKey a =>
    match withKey c s a files with
    | .ok (key, store) => store.saveAndPrint s.draw (key.credential ++ "\n") files
    | .error fault => (.error fault, files)
  | .listKeys =>
    match c.openStore s files with
    | .ok (_, store) => (.ok (keyTable store), files)
    | .error e => (.error (.store e), files)

end Command

namespace CommandLine

/-- Reads the words after the name of the program, then the configuration, and runs the command. -/
def run (words : List String) (s : Surroundings) (files : FileTree) : CommandResult :=
  match read words with
  | .error fault => (.error (.line fault), files)
  | .ok line =>
    match Config.load files line.config s.environment with
    | none => (.error .settings, files)
    | some c => line.command.run c s files

end CommandLine

end Turnstile
