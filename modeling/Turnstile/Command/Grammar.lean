import Turnstile.Record.User
import Turnstile.Text.Decimal

/-! What can be asked for on the command line, and the options by which it is asked. Commands have
levels: `key` stands above `key add` and `key list`. -/

namespace Turnstile

structure UserAddition where
  username : String
  /-- Read from the input when it is left out. -/
  password : Option String
  role : Role
deriving DecidableEq

structure KeyAddition where
  label : String
  /-- The name or the id of a user. -/
  owner : Option String
  totalLimit : UInt64
  concurrencyLimit : UInt32
  compatibilityMode : Bool
  disabled : Bool
  /-- Made up when it is left out. -/
  credential : Option String
deriving DecidableEq

inductive Command where
  | serve
  | hashPassword (password : Option String)
  | addUser (addition : UserAddition)
  | addKey (addition : KeyAddition)
  | listKeys
deriving DecidableEq

structure CommandLine where
  /-- A configuration file laid over the others. -/
  config : Option String
  command : Command
deriving DecidableEq

/-- Why a line is not carried out. To ask for help or for the version is one of the reasons. -/
inductive LineFault where
  | helpAsked
  | versionAsked
  | nothingAsked
  | commandMissing
  | unknownCommand
  | unknownOption
  | valueMissing
  | valueUnfit
  | valueUnasked
  | optionRepeated
  | optionMissing
deriving DecidableEq

namespace CommandLine

/-! ## Options -/

/-- What a level's options have given. -/
structure Draft where
  config : Option String := none
  password : Option String := none
  username : Option String := none
  role : Role := .user
  label : String := ""
  owner : Option String := none
  totalLimit : UInt64 := 0
  concurrencyLimit : UInt32 := 0
  compatibilityMode : Bool := false
  disabled : Bool := false
  credential : Option String := none

/-- What a value does to a draft if it fits. -/
abbrev Taker := String → Except LineFault (Draft → Draft)

inductive Effect where
  | help
  | version
  | mark (change : Draft → Draft)
  | take (taker : Taker)

namespace Taker

def text (put : String → Draft → Draft) : Taker := fun s => .ok (put s)

/-- A path is not empty. -/
def path (put : String → Draft → Draft) : Taker := fun s =>
  if s.isEmpty then .error .valueMissing else .ok (put s)

def role (put : Role → Draft → Draft) : Taker := fun s =>
  match Role.parse s with
  | .ok r => .ok (put r)
  | .error _ => .error .valueUnfit

/-- Digits, with a plus sign at most. -/
def count64 (put : UInt64 → Draft → Draft) : Taker := fun s =>
  match (Decimal.unsigned? s.toList).filter (· < UInt64.size) with
  | some n => .ok (put (.ofNat n))
  | none => .error .valueUnfit

/-- A whole number in the range; zero may have a minus sign. -/
def count32 (put : UInt32 → Draft → Draft) : Taker := fun s =>
  match (Decimal.integer? s.toList).filter fun (n : Int) => 0 ≤ n && n < UInt32.size with
  | some n => .ok (put (.ofNat n.toNat))
  | none => .error .valueUnfit

end Taker

/-! ## Levels -/

inductive Level where
  | top
  | serve
  | hashPassword
  | user
  | addUser
  | key
  | addKey
  | listKeys
deriving DecidableEq

namespace Level

def children : Level → List (String × Level)
  | top => [("serve", serve), ("hash-password", hashPassword), ("user", user), ("key", key)]
  | user => [("add", addUser)]
  | key => [("add", addKey), ("list", listKeys)]
  | _ => []

/-- A word that asks for help at every level that has commands. -/
def helpWord : String := "help"

/-- The words that are commands of the level. -/
def hasCommand (level : Level) (word : String) : Bool :=
  (level.children.lookup word).isSome || (!level.children.isEmpty && word == helpWord)

def ownOptions : Level → List (String × Effect)
  | top => [("version", .version)]
  | addUser => [
      ("username", .take (.text fun s d => { d with username := some s })),
      ("password", .take (.text fun s d => { d with password := some s })),
      ("role", .take (.role fun r d => { d with role := r }))]
  | addKey => [
      ("label", .take (.text fun s d => { d with label := s })),
      ("user", .take (.text fun s d => { d with owner := some s })),
      ("total-limit", .take (.count64 fun n d => { d with totalLimit := n })),
      ("concurrency-limit", .take (.count32 fun n d => { d with concurrencyLimit := n })),
      ("compat", .mark fun d => { d with compatibilityMode := true }),
      ("disabled", .mark fun d => { d with disabled := true }),
      ("key", .take (.text fun s d => { d with credential := some s }))]
  | _ => []

/-- Help and the configuration file can be asked for everywhere. -/
def options (level : Level) : List (String × Effect) :=
  ("help", .help) :: ("config", .take (.path fun s d => { d with config := some s })) ::
    level.ownOptions

/-- The option that a letter stands for. -/
def ofLetter? (level : Level) : Char → Option Effect
  | 'h' => some .help
  | 'V' => level.options.lookup "version"
  | _ => none

/-- What a draft asks for at its level. -/
def finish (level : Level) (asked : Bool) (d : Draft) : Except LineFault CommandLine :=
  let line (command : Command) : Except LineFault CommandLine := .ok ⟨d.config, command⟩
  match level with
  | top | user | key => .error (if asked then .commandMissing else .nothingAsked)
  | serve => line .serve
  | hashPassword => line (.hashPassword d.password)
  | addUser =>
    match d.username with
    | some username => line (.addUser ⟨username, d.password, d.role⟩)
    | none => .error .optionMissing
  | addKey => line (.addKey ⟨d.label, d.owner, d.totalLimit, d.concurrencyLimit,
      d.compatibilityMode, d.disabled, d.credential⟩)
  | listKeys => line .listKeys

end Level

end CommandLine

end Turnstile
