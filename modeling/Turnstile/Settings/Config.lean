import Turnstile.Settings.Source

/-! The configuration. It is put together from two optional files, one that is asked for, and the
environment, each laid over the ones before. What no source sets has a default; what is set has to
fit. -/

namespace Turnstile

inductive LogFormat where
  | pretty
  | compact
  | json
deriving DecidableEq

namespace LogFormat

def label : LogFormat → String
  | pretty => "pretty"
  | compact => "compact"
  | json => "json"

end LogFormat

structure Config where
  host : String := "0.0.0.0"
  port : Nat := 8080
  logLevel : String := "info"
  logFormat : LogFormat := .pretty
  dataPath : Option String := none
  dataDir : Option String := none
  saveOnUse : Bool := true
  memoryKib : Nat := 19456
  iterations : Nat := 2
  parallelism : Nat := 1
deriving DecidableEq

namespace Config

/-! ## From settings -/

/-- The field of a group: by its name in a table or by its place in a list. A group that is missing
sets nothing, and any other value is no group. -/
def fieldOf? (group : Option Setting) (name : String) (place : Nat) :
    Option (Option Setting) :=
  match group with
  | none => some none
  | some (.table entries) => some (entries.lookup name)
  | some (.list items) => some items[place]?
  | some _ => none

/-- A default for what is not set; what is set has to fit. -/
def read (v : Option Setting) (convert : Setting → Option α) (default : α) : Option α :=
  match v with
  | none => some default
  | some v => convert v

def logFormats : List (String × LogFormat) :=
  [("pretty", .pretty), ("compact", .compact), ("json", .json)]

def ofSettings (v : Setting) : Option Config := do
  let unset : Config := {}
  let group (name : String) (place : Nat) := fieldOf? (some v) name place
  let server ← group "server" 0
  let logging ← group "logging" 1
  let store ← group "store" 2
  let password ← group "password" 3
  let count32 := Setting.toCountBelow? UInt32.size
  return {
    host := ← read (← fieldOf? server "host" 0) Setting.toText? unset.host
    port := ← read (← fieldOf? server "port" 1) (Setting.toCountBelow? UInt16.size) unset.port
    logLevel := ← read (← fieldOf? logging "level" 0) Setting.toText? unset.logLevel
    logFormat := ← read (← fieldOf? logging "format" 1) (Setting.toChoice? logFormats)
      unset.logFormat
    dataPath := ← read (← fieldOf? store "data_path" 0) Setting.toOptionalText? unset.dataPath
    dataDir := ← read (← fieldOf? store "data_dir" 1) Setting.toOptionalText? unset.dataDir
    saveOnUse := ← read (← fieldOf? store "save_on_use" 2) Setting.toBool? unset.saveOnUse
    memoryKib := ← read (← fieldOf? password "memory_kib" 0) count32 unset.memoryKib
    iterations := ← read (← fieldOf? password "iterations" 1) count32 unset.iterations
    parallelism := ← read (← fieldOf? password "parallelism" 2) count32 unset.parallelism }

/-! ## From sources -/

/-- The files that are laid under all others, and over those, if they are there. -/
def defaultName : String := "config/default"

def localName : String := "config/local"

/-- The layers, the lowest first. -/
def layers (files : FileTree) (explicit : Option String) (environment : List (String × String)) :
    Option (List (List (String × Setting))) := do
  let base ← Setting.ofFile files false defaultName
  let here ← Setting.ofFile files false localName
  let asked ← match explicit with
    | none => some []
    | some path => Setting.ofFile files true path
  return [base, here, asked, Setting.ofVariables environment]

/-- The files that layers are looked for in. -/
def sourcePaths (explicit : Option String) : List String :=
  ([defaultName, localName] ++ explicit.toList).flatMap fun name =>
    name :: Setting.Format.all.map (Setting.withEnding name)

/-- `none` if a file is missing or broken or a value does not fit. -/
def load (files : FileTree) (explicit : Option String) (environment : List (String × String)) :
    Option Config := do
  let layers ← layers files explicit environment
  ofSettings (layers.foldl Setting.layOver (.table []))

/-! ## The data file -/

/-- The variable that overrides every configured path. -/
def pathVariable : String := "KEYGATE_DATA_PATH"

def dataFileName : String := "keygate-data.json"

/-- The override without its blanks, the configured path, the file in the configured directory, or
the file in the working directory: the first that is not empty. -/
def resolvePath (override dataPath dataDir : Option String) : String :=
  match (override.map Text.trim).filter (!·.isEmpty), dataPath.filter (!·.isEmpty),
      dataDir.filter (!·.isEmpty) with
  | some path, _, _ => path
  | none, some path, _ => path
  | none, none, some directory => Path.join directory dataFileName
  | none, none, none => Path.join "." dataFileName

def dataFile (c : Config) (environment : List (String × String)) : String :=
  resolvePath (environment.lookup pathVariable) c.dataPath c.dataDir

end Config

end Turnstile
