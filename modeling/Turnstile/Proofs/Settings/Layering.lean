import Mathlib.Data.List.Basic
import Turnstile.Proofs.Settings.Overlay
import Turnstile.Settings.Config

/-! Settings from several sources. The highest source that sets a setting decides, and no source
has a say in another setting by it. -/

namespace Turnstile

namespace Config

/-! ## Settings of the configuration -/

/-- A setting of the configuration, with the type of its values. -/
inductive Item : Type → Type where
  | host : Item String
  | port : Item Nat
  | logLevel : Item String
  | logFormat : Item LogFormat
  | dataPath : Item (Option String)
  | dataDir : Item (Option String)
  | saveOnUse : Item Bool
  | memoryKib : Item Nat
  | iterations : Item Nat
  | parallelism : Item Nat

namespace Item

variable {α : Type}

def group : Item α → String
  | host | port => "server"
  | logLevel | logFormat => "logging"
  | dataPath | dataDir | saveOnUse => "store"
  | memoryKib | iterations | parallelism => "password"

def name : Item α → String
  | host => "host"
  | port => "port"
  | logLevel => "level"
  | logFormat => "format"
  | dataPath => "data_path"
  | dataDir => "data_dir"
  | saveOnUse => "save_on_use"
  | memoryKib => "memory_kib"
  | iterations => "iterations"
  | parallelism => "parallelism"

def convert : Item α → Setting → Option α
  | host | logLevel => Setting.toText?
  | port => Setting.toCountBelow? UInt16.size
  | logFormat => Setting.toChoice? logFormats
  | dataPath | dataDir => Setting.toOptionalText?
  | saveOnUse => Setting.toBool?
  | memoryKib | iterations | parallelism => Setting.toCountBelow? UInt32.size

/-- The value in a configuration. -/
def of : Item α → Config → α
  | host => Config.host
  | port => Config.port
  | logLevel => Config.logLevel
  | logFormat => Config.logFormat
  | dataPath => Config.dataPath
  | dataDir => Config.dataDir
  | saveOnUse => Config.saveOnUse
  | memoryKib => Config.memoryKib
  | iterations => Config.iterations
  | parallelism => Config.parallelism

/-- The place of the group, and of the setting in it, where they are written as lists. -/
def groupPlace : Item α → Nat
  | host | port => 0
  | logLevel | logFormat => 1
  | dataPath | dataDir | saveOnUse => 2
  | memoryKib | iterations | parallelism => 3

def place : Item α → Nat
  | host | logLevel | dataPath | memoryKib => 0
  | port | logFormat | dataDir | iterations => 1
  | saveOnUse | parallelism => 2

/-- What is read of all settings together. -/
def read? (item : Item α) (v : Setting) : Option α := do
  let group ← fieldOf? (some v) item.group item.groupPlace
  let field ← fieldOf? group item.name item.place
  Config.read field item.convert (item.of {})

/-- All that a source says of the setting. -/
def said (item : Item α) (source : List (String × Setting)) : List Setting :=
  Setting.said item.group item.name source

end Item

/-- The configuration with these values. -/
def ofItems (value : ∀ {α : Type}, Item α → α) : Config where
  host := value .host
  port := value .port
  logLevel := value .logLevel
  logFormat := value .logFormat
  dataPath := value .dataPath
  dataDir := value .dataDir
  saveOnUse := value .saveOnUse
  memoryKib := value .memoryKib
  iterations := value .iterations
  parallelism := value .parallelism

theorem of_ofItems (value : ∀ {α : Type}, Item α → α) {α : Type} (item : Item α) :
    item.of (ofItems value) = value item := by
  cases item <;> rfl

theorem fieldOf?_of_table {v : Setting} (h : v.isTable = true) (name : String) (place : Nat) :
    fieldOf? (some v) name place = some (v.get? name) := by
  obtain ⟨entries, rfl⟩ := Setting.isTable_eq_true_iff.mp h
  rfl

theorem fieldOf?_of_grouped {v : Setting} {group : String} (h : v.Grouped group) (name : String)
    (place : Nat) : fieldOf? (v.get? group) name place = some (v.at? group name) := by
  rw [Setting.at?]
  cases hfound : v.get? group with
  | none => rfl
  | some w => exact fieldOf?_of_table (h w hfound) name place

theorem Item.read?_of_grouped {v : Setting} {α : Type} {item : Item α} (htable : v.isTable = true)
    (hgrouped : v.Grouped item.group) :
    item.read? v = read (v.at? item.group item.name) item.convert (item.of {}) := by
  rw [Item.read?, fieldOf?_of_table htable, Option.bind_eq_bind, Option.bind_some,
    fieldOf?_of_grouped hgrouped, Option.bind_some]

theorem Item.read?_of_group {v : Setting} {α : Type} (item : Item α) {group : Option Setting}
    (h : fieldOf? (some v) item.group item.groupPlace = some group) :
    item.read? v = (fieldOf? group item.name item.place).bind
      fun field => read field item.convert (item.of {}) := by
  rw [Item.read?, h]
  rfl

theorem read_bind_eq_some_iff {α β : Type} {group : Option Setting} {name : String} {place : Nat}
    {convert : Setting → Option α} {default : α} {rest : α → Option β} {b : β} :
    ((fieldOf? group name place).bind fun field => (read field convert default).bind rest) =
        some b ↔
      ∃ a, ((fieldOf? group name place).bind fun field => read field convert default) = some a ∧
        rest a = some b := by
  rw [← Option.bind_assoc, Option.bind_eq_some_iff]

/-- A configuration is read setting by setting. -/
theorem ofSettings_iff {v : Setting} {c : Config} : ofSettings v = some c ↔
    ∀ {α : Type} (item : Item α), item.read? v = some (item.of c) := by
  constructor
  · intro h α item
    obtain ⟨server, hserver, h⟩ := Option.bind_eq_some_iff.mp h
    obtain ⟨logging, hlogging, h⟩ := Option.bind_eq_some_iff.mp h
    obtain ⟨store, hstore, h⟩ := Option.bind_eq_some_iff.mp h
    obtain ⟨password, hpassword, h⟩ := Option.bind_eq_some_iff.mp h
    obtain ⟨host, hhost, h⟩ := read_bind_eq_some_iff.mp h
    obtain ⟨port, hport, h⟩ := read_bind_eq_some_iff.mp h
    obtain ⟨level, hlevel, h⟩ := read_bind_eq_some_iff.mp h
    obtain ⟨format, hformat, h⟩ := read_bind_eq_some_iff.mp h
    obtain ⟨path, hpath, h⟩ := read_bind_eq_some_iff.mp h
    obtain ⟨dir, hdir, h⟩ := read_bind_eq_some_iff.mp h
    obtain ⟨save, hsave, h⟩ := read_bind_eq_some_iff.mp h
    obtain ⟨memory, hmemory, h⟩ := read_bind_eq_some_iff.mp h
    obtain ⟨iterations, hiterations, h⟩ := read_bind_eq_some_iff.mp h
    obtain ⟨parallelism, hparallelism, h⟩ := read_bind_eq_some_iff.mp h
    cases h
    cases item with
    | host => exact (Item.host.read?_of_group hserver).trans hhost
    | port => exact (Item.port.read?_of_group hserver).trans hport
    | logLevel => exact (Item.logLevel.read?_of_group hlogging).trans hlevel
    | logFormat => exact (Item.logFormat.read?_of_group hlogging).trans hformat
    | dataPath => exact (Item.dataPath.read?_of_group hstore).trans hpath
    | dataDir => exact (Item.dataDir.read?_of_group hstore).trans hdir
    | saveOnUse => exact (Item.saveOnUse.read?_of_group hstore).trans hsave
    | memoryKib => exact (Item.memoryKib.read?_of_group hpassword).trans hmemory
    | iterations => exact (Item.iterations.read?_of_group hpassword).trans hiterations
    | parallelism => exact (Item.parallelism.read?_of_group hpassword).trans hparallelism
  · intro h
    obtain ⟨server, hserver, hhost⟩ := Option.bind_eq_some_iff.mp (h .host)
    obtain ⟨logging, hlogging, hlevel⟩ := Option.bind_eq_some_iff.mp (h .logLevel)
    obtain ⟨store, hstore, hpath⟩ := Option.bind_eq_some_iff.mp (h .dataPath)
    obtain ⟨password, hpassword, hmemory⟩ := Option.bind_eq_some_iff.mp (h .memoryKib)
    have hport := (Item.port.read?_of_group hserver).symm.trans (h .port)
    have hformat := (Item.logFormat.read?_of_group hlogging).symm.trans (h .logFormat)
    have hdir := (Item.dataDir.read?_of_group hstore).symm.trans (h .dataDir)
    have hsave := (Item.saveOnUse.read?_of_group hstore).symm.trans (h .saveOnUse)
    have hiterations := (Item.iterations.read?_of_group hpassword).symm.trans (h .iterations)
    have hparallelism := (Item.parallelism.read?_of_group hpassword).symm.trans (h .parallelism)
    refine Option.bind_eq_some_iff.mpr ⟨server, hserver, ?_⟩
    refine Option.bind_eq_some_iff.mpr ⟨logging, hlogging, ?_⟩
    refine Option.bind_eq_some_iff.mpr ⟨store, hstore, ?_⟩
    refine Option.bind_eq_some_iff.mpr ⟨password, hpassword, ?_⟩
    refine read_bind_eq_some_iff.mpr ⟨_, hhost, ?_⟩
    refine read_bind_eq_some_iff.mpr ⟨_, hport, ?_⟩
    refine read_bind_eq_some_iff.mpr ⟨_, hlevel, ?_⟩
    refine read_bind_eq_some_iff.mpr ⟨_, hformat, ?_⟩
    refine read_bind_eq_some_iff.mpr ⟨_, hpath, ?_⟩
    refine read_bind_eq_some_iff.mpr ⟨_, hdir, ?_⟩
    refine read_bind_eq_some_iff.mpr ⟨_, hsave, ?_⟩
    refine read_bind_eq_some_iff.mpr ⟨_, hmemory, ?_⟩
    refine read_bind_eq_some_iff.mpr ⟨_, hiterations, ?_⟩
    exact read_bind_eq_some_iff.mpr ⟨_, hparallelism, rfl⟩

/-! ## Sources -/

/-- The sources of a configuration, as they are read. -/
structure Sources where
  base : List (String × Setting)
  here : List (String × Setting)
  asked : List (String × Setting)
  environment : List (String × Setting)

namespace Sources

variable {α : Type} {s : Sources} {files : FileTree} {explicit : Option String}
  {environment : List (String × String)}

/-- The highest first. -/
def ranked (s : Sources) : List (List (String × Setting)) :=
  [s.environment, s.asked, s.here, s.base]

/-- What the highest source that sets a setting says of it. -/
def value? (s : Sources) (item : Item α) : Option Setting :=
  s.ranked.findSome? fun source => (item.said source).head?

/-- These are the sources that are found: the file under the default name and the local one, which
may be missing, the file that is asked for, which may not, and the environment. -/
structure Found (s : Sources) (files : FileTree) (explicit : Option String)
    (environment : List (String × String)) : Prop where
  base : Setting.ofFile files false defaultName = some s.base
  here : Setting.ofFile files false localName = some s.here
  asked : explicit.elim (some []) (Setting.ofFile files true) = some s.asked
  environment : s.environment = Setting.ofVariables environment

/-- Every source sets settings in tables, each once at most, to values that can be converted. A value
is no table itself: what a source says in tables it says of the settings in them. -/
structure Tidy (s : Sources) : Prop where
  inTables : ∀ {α : Type} (item : Item α), ∀ source ∈ s.ranked,
    Setting.InTables item.group item.name source
  once : ∀ {α : Type} (item : Item α), ∀ source ∈ s.ranked, (item.said source).length ≤ 1
  fits : ∀ {α : Type} (item : Item α), ∀ source ∈ s.ranked, ∀ v ∈ item.said source,
    v.isTable = false ∧ (item.convert v).isSome = true

theorem Found.layers (h : s.Found files explicit environment) :
    layers files explicit environment = some s.ranked.reverse := by
  have hasked := h.asked
  rw [Config.layers, h.base, h.here, ← h.environment]
  cases explicit with
  | none =>
    have hempty : [] = s.asked := Option.some.inj hasked
    rw [ranked, ← hempty]
    rfl
  | some path =>
    rw [Option.elim_some] at hasked
    simp only [hasked]
    rfl

theorem Tidy.value?_eq (h : s.Tidy) (item : Item α) :
    s.value? item = (s.ranked.reverse.flatMap item.said).getLast? := by
  have hends : ∀ source ∈ s.ranked, (item.said source).head? = (item.said source).getLast? := by
    intro source hsource
    match hsaid : item.said source, h.once item source hsource with
    | [], _ => rfl
    | [v], _ => rfl
  rw [value?, ← List.head?_filterMap, List.filterMap_congr hends, List.head?_filterMap,
    List.getLast?_flatMap, List.reverse_reverse]

theorem Tidy.inTables_flatten (h : s.Tidy) (item : Item α) :
    Setting.InTables item.group item.name s.ranked.reverse.flatten := by
  intro entry hentry
  obtain ⟨source, hsource, hmem⟩ := List.mem_flatten.mp hentry
  exact h.inTables item source (List.mem_reverse.mp hsource) entry hmem

theorem Tidy.isSome_convert (h : s.Tidy) {item : Item α} {v : Setting}
    (hv : s.value? item = some v) : (item.convert v).isSome = true := by
  obtain ⟨source, hsource, hhead⟩ := List.exists_of_findSome?_eq_some hv
  exact (h.fits item source hsource v (List.mem_of_head? hhead)).2

/-- What is read of a setting is what the highest source says of it. -/
theorem Tidy.read_eq (h : s.Tidy) (item : Item α) :
    read ((Setting.layOver (.table []) s.ranked.reverse.flatten).at? item.group item.name)
        item.convert (item.of {}) =
      some (((s.value? item).bind item.convert).getD (item.of {})) := by
  have hstack : (Setting.layOver (.table []) s.ranked.reverse.flatten).at? item.group item.name =
      Setting.stack none (s.ranked.reverse.flatMap item.said) := by
    rw [(Setting.at?_layOver (Setting.grouped_empty _) (h.inTables_flatten item)).1,
      Setting.said_flatten]
    rfl
  rw [hstack, h.value?_eq item]
  cases hlast : (s.ranked.reverse.flatMap item.said).getLast? with
  | none =>
    rw [List.getLast?_eq_none_iff.mp hlast]
    rfl
  | some last =>
    obtain ⟨source, hsource, hsaid⟩ := List.mem_flatMap.mp (List.mem_of_getLast? hlast)
    obtain ⟨htable, hconvert⟩ := h.fits item source (List.mem_reverse.mp hsource) last hsaid
    obtain ⟨a, ha⟩ := Option.isSome_iff_exists.mp hconvert
    rw [Setting.stack_of_getLast? hlast htable, read, Option.bind_some, ha]
    rfl

theorem Tidy.load_eq (h : s.Tidy) (hfound : s.Found files explicit environment) :
    load files explicit environment =
      some (ofItems fun item => ((s.value? item).bind item.convert).getD (item.of {})) := by
  have htable : (Setting.layOver (.table []) s.ranked.reverse.flatten).isTable = true :=
    Setting.isTable_layOver rfl _
  rw [load, hfound.layers, Option.bind_eq_bind, Option.bind_some, Setting.foldl_layOver]
  refine ofSettings_iff.mpr fun item => ?_
  rw [Item.read?_of_grouped htable
    (Setting.at?_layOver (Setting.grouped_empty _) (h.inTables_flatten item)).2, h.read_eq item,
    of_ofItems]

end Sources

/-- Each setting has the value of the highest source that sets it, and its default if none does. So
two loads give it one value if the highest sources that set it say the same, whatever their sources
say of other settings. -/
theorem load_layered (s : Sources) (files : FileTree) (explicit : Option String)
    (environment : List (String × String)) (hfound : s.Found files explicit environment)
    (htidy : s.Tidy) :
    ∃ c, load files explicit environment = some c ∧
      (∀ {α : Type} (item : Item α),
        (∀ v, s.value? item = some v → item.convert v = some (item.of c)) ∧
          (s.value? item = none → item.of c = item.of {})) ∧
      ∀ (s' : Sources) (files' : FileTree) (explicit' : Option String)
        (environment' : List (String × String)), s'.Found files' explicit' environment' → s'.Tidy →
        ∃ c', load files' explicit' environment' = some c' ∧ ∀ {α : Type} (item : Item α),
          s'.value? item = s.value? item → item.of c' = item.of c := by
  refine ⟨_, htidy.load_eq hfound, fun item => ⟨fun v hv => ?_, fun hnone => ?_⟩, ?_⟩
  · obtain ⟨a, ha⟩ := Option.isSome_iff_exists.mp (htidy.isSome_convert hv)
    rw [of_ofItems, hv, Option.bind_some, ha, Option.getD_some]
  · rw [of_ofItems, hnone]
    rfl
  · intro s' files' explicit' environment' hfound' htidy'
    refine ⟨_, htidy'.load_eq hfound', fun item hsame => ?_⟩
    rw [of_ofItems, of_ofItems, hsame]

/-- Three files, of which one sets what another one sets too. -/
def layeredFiles : FileTree :=
  (((FileTree.empty.set ["work", "config"] .directory).set ["work", "config", "default.toml"]
    (.file (Utf8.encode "[server]\nport = 1000\nhost = \"h\"") 0o644)).set
    ["work", "config", "local.json"]
    (.file (Utf8.encode
      "\x7b\"Server\":\x7b\"PORT\":\"2000\"\x7d,\"store\":\x7b\"data_path\":null\x7d\x7d")
      0o644)).set
    ["work", "asked.toml"] (.file (Utf8.encode "logging.format = \"pretty\"") 0o644)

def layeredVariables : List (String × String) :=
  [("HOME", "/root"), ("APP__LOGGING__FORMAT", "Json")]

def layeredSources : Sources where
  base := [("server", .table [("port", .int 1000), ("host", .text "h")])]
  here := [("Server", .table [("PORT", .text "2000")]), ("store", .table [("data_path", .null)])]
  asked := [("logging", .table [("format", .text "pretty")])]
  environment := [("logging.format", .text "Json")]

theorem load_layered_four :
    layeredSources.Found layeredFiles (some "asked.toml") layeredVariables ∧
      layeredSources.Tidy ∧ ∃ c, load layeredFiles (some "asked.toml") layeredVariables = some c ∧
        c.logFormat = .json ∧ c.port = 2000 ∧ c.dataPath = none ∧ c.host = "h" ∧
        c.logLevel = "info" := by
  have hfound : layeredSources.Found layeredFiles (some "asked.toml") layeredVariables :=
    ⟨by decide +kernel, by decide +kernel, by decide +kernel, by decide +kernel⟩
  have htidy : layeredSources.Tidy :=
    ⟨fun item => by cases item <;> decide +kernel, fun item => by cases item <;> decide +kernel,
      fun item => by cases item <;> decide +kernel⟩
  obtain ⟨c, hload, hitems, -⟩ :=
    load_layered layeredSources layeredFiles (some "asked.toml") layeredVariables hfound htidy
  have hset {α : Type} (item : Item α) {v : Setting} {a : α}
      (hvalue : layeredSources.value? item = some v) (hconvert : item.convert v = some a) :
      item.of c = a :=
    Option.some.inj (((hitems item).1 v hvalue).symm.trans hconvert)
  refine ⟨hfound, htidy, c, hload, ?_, ?_, ?_, ?_, ?_⟩
  · exact hset .logFormat (v := .text "Json") (by decide +kernel) (by decide +kernel)
  · exact hset .port (v := .text "2000") (by decide +kernel) (by decide +kernel)
  · exact hset .dataPath (v := .null) (by decide +kernel) rfl
  · exact hset .host (v := .text "h") (by decide +kernel) rfl
  · exact (hitems .logLevel).2 (by decide +kernel)

end Config

end Turnstile
