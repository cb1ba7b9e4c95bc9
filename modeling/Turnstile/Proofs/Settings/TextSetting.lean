import Turnstile.Proofs.Settings.Guess
import Turnstile.Proofs.Settings.Insertion
import Turnstile.Proofs.Settings.TextFile

/-! Settings that are texts. A file gives the text that is written in it; a variable gives it unless
the text stands for a truth value or a number that is written in another way. -/

namespace Turnstile

namespace Config

/-- The value that a text is, for a setting that is a text. -/
def Item.asText? {α : Type} : Item α → Option (String → α)
  | .host | .logLevel => some id
  | .dataPath | .dataDir => some some
  | _ => none

variable {α : Type} {item : Item α} {written : String → α} {v n : String} {files : FileTree}

theorem Item.convert_of_text (htext : item.asText? = some written) {x : Setting} {t : String}
    (ht : x.toText? = some t) : item.convert x = some (written t) := by
  have hoptional : x.toOptionalText? = some (some t) := by
    cases x with
    | null => cases ht
    | _ => exact congrArg (Option.map some) ht
  cases item with
  | host | logLevel =>
    cases htext
    exact ht
  | dataPath | dataDir =>
    cases htext
    exact hoptional
  | _ => cases htext

theorem Item.written_eq_iff (htext : item.asText? = some written) {s t : String} :
    written s = written t ↔ s = t := by
  cases item with
  | host | logLevel =>
    cases htext
    rfl
  | dataPath | dataDir =>
    cases htext
    exact Option.some_inj
  | _ => cases htext

/-! ## Names -/

theorem Item.bare_group (item : Item α) : Toml.Bare item.group := by
  cases item <;> exact ⟨by decide, by decide⟩

theorem Item.bare_name (item : Item α) : Toml.Bare item.name := by
  cases item <;> exact ⟨by decide, by decide⟩

theorem Item.readPath_group (item : Item α) : Setting.readPath item.group = [.name item.group] := by
  cases item <;> decide +kernel

/-! ## From the environment -/

/-- The variable of a setting, in lower case. -/
def Item.variableName (item : Item α) : String :=
  Setting.environmentStem ++ item.group ++ "__" ++ item.name

theorem Item.ofVariable? (hn : Text.toLower n = item.variableName) (v : String) :
    ∃ key, Setting.ofVariable? n v = some (key, Setting.ofEnvironment v) ∧
      Setting.readPath key = [.name item.group, .name item.name] := by
  have hstem : Setting.environmentStem.toList.isPrefixOf item.variableName.toList = true := by
    cases item <;> decide +kernel
  refine ⟨String.ofList (Setting.dividePath
    (item.variableName.toList.drop Setting.environmentStem.length)), ?_, ?_⟩
  · simp only [Setting.ofVariable?, hn, hstem, if_true]
  · cases item <;> decide +kernel

/-- The environment says nothing of the setting, nor of anything above or below it. -/
def Item.Untouched (item : Item α) (environment : List (String × String)) : Prop :=
  Setting.InTables item.group item.name (Setting.ofVariables environment) ∧
    item.said (Setting.ofVariables environment) = []

instance (item : Item α) (environment : List (String × String)) :
    Decidable (item.Untouched environment) :=
  inferInstanceAs (Decidable (_ ∧ _))

theorem Item.Untouched.of_append {front back : List (String × String)}
    (h : item.Untouched (front ++ back)) : item.Untouched back := by
  obtain ⟨htables, hsaid⟩ := h
  rw [Setting.ofVariables, List.filterMap_append] at htables hsaid
  refine ⟨fun entry hentry => htables entry (List.mem_append_right _ hentry), ?_⟩
  rw [Item.said, Setting.said, List.flatMap_append] at hsaid
  exact (List.append_eq_nil_iff.mp hsaid).2

/-! ## All sources -/

/-- The entries of the files, the lowest first. -/
def fileEntries? (files : FileTree) (explicit : Option String) :
    Option (List (String × Setting)) := do
  let base ← Setting.ofFile files false defaultName
  let here ← Setting.ofFile files false localName
  let asked ← explicit.elim (some []) (Setting.ofFile files true)
  return base ++ here ++ asked

theorem load_eq_bind (files : FileTree) (explicit : Option String)
    (environment : List (String × String)) : load files explicit environment =
      (fileEntries? files explicit).bind fun entries => ofSettings
        (Setting.layOver (.table []) (entries ++ Setting.ofVariables environment)) := by
  have hflat (base here asked : List (String × Setting)) :
      [base, here, asked, Setting.ofVariables environment].foldl Setting.layOver (.table []) =
        Setting.layOver (.table []) (base ++ here ++ asked ++ Setting.ofVariables environment) := by
    rw [Setting.foldl_layOver]
    simp
  cases explicit <;>
    simp only [load, layers, fileEntries?, Option.elim_none, Option.elim_some, Option.bind_eq_bind,
      Option.bind_assoc, Option.pure_def, Option.bind_some, hflat]

theorem load_eq_some_iff {explicit : Option String} {environment : List (String × String)}
    {c : Config} : load files explicit environment = some c ↔
      ∃ entries, fileEntries? files explicit = some entries ∧ ofSettings
        (Setting.layOver (.table []) (entries ++ Setting.ofVariables environment)) = some c := by
  rw [load_eq_bind, Option.bind_eq_some_iff]

/-- A text in the environment is loaded as it is, unless it stands for a value which is written in
another way. -/
theorem text_of_environment (htext : item.asText? = some written)
    (hn : Text.toLower n = item.variableName) {front back : List (String × String)}
    (huntouched : item.Untouched (front ++ back)) {explicit : Option String} {c₀ : Config}
    (hload : load files explicit (front ++ back) = some c₀) (v : String) :
    ∃ c, load files explicit (front ++ (n, v) :: back) = some c ∧
      (item.of c = written v ↔ ¬Setting.Rewritten v) := by
  obtain ⟨t, ht, hrewritten⟩ := Setting.toText?_ofEnvironment v
  obtain ⟨key, hkey, hpath⟩ := Item.ofVariable? hn v
  obtain ⟨entries, hentries, hbefore⟩ := load_eq_some_iff.mp hload
  have happend : entries ++ Setting.ofVariables (front ++ (n, v) :: back) =
      entries ++ Setting.ofVariables front ++
        (key, Setting.ofEnvironment v) :: Setting.ofVariables back := by
    simp [Setting.ofVariables, hkey]
  have hleaf : (Setting.ofEnvironment v).isTable = false := by
    cases hvalue : Setting.ofEnvironment v with
    | table => rw [hvalue] at ht; cases ht
    | _ => rfl
  rw [Setting.ofVariables, List.filterMap_append, ← List.append_assoc] at hbefore
  obtain ⟨c, hc, hvalue⟩ := ofSettings_inserted _ _ hbefore (.path hpath) hleaf
    (Item.convert_of_text htext ht) huntouched.of_append.1 huntouched.of_append.2
  refine ⟨c, load_eq_some_iff.mpr ⟨entries, hentries, by rw [happend]; exact hc⟩, ?_⟩
  rw [hvalue, Item.written_eq_iff htext, hrewritten]

/-- A text in a file of either format is loaded as it is. -/
theorem text_of_file (htext : item.asText? = some written)
    {environment : List (String × String)} (huntouched : item.Untouched environment) {c₀ : Config}
    (hload : load files none environment = some c₀) {f : Setting.Format} {place path : String}
    (hlocate : Setting.locateFile? files place = some (path, f))
    (hcontents : files.contents path = .ok (Utf8.encode (f.write item.group item.name v))) :
    ∃ c, load files (some place) environment = some c ∧ item.of c = written v := by
  obtain ⟨entries, hentries, hbefore⟩ := load_eq_some_iff.mp hload
  have hasked := Setting.ofFile_write true item.bare_group item.bare_name hlocate hcontents
  have hwith : fileEntries? files (some place) =
      some (entries ++ [(item.group, .table [(item.name, .text v)])]) := by
    simp only [fileEntries?, Option.elim_some, Option.elim_none, Option.bind_eq_bind,
      Option.bind_some, Option.bind_eq_some_iff, hasked] at hentries ⊢
    obtain ⟨base, hbase, here, hhere, hnone⟩ := hentries
    rw [List.append_nil] at hnone
    exact ⟨base, hbase, here, hhere, by rw [← Option.some.inj hnone]; rfl⟩
  have happend : entries ++ [(item.group, .table [(item.name, .text v)])] ++
      Setting.ofVariables environment =
        entries ++ (item.group, .table [(item.name, .text v)]) ::
          Setting.ofVariables environment := by
    rw [List.append_assoc, List.singleton_append]
  obtain ⟨c, hc, hvalue⟩ := ofSettings_inserted entries _ hbefore (.group item.readPath_group) rfl
    (Item.convert_of_text htext (x := .text v) rfl) huntouched.1 huntouched.2
  exact ⟨c, load_eq_some_iff.mpr ⟨_, hwith, by rw [happend]; exact hc⟩, hvalue⟩

/-- A text that a variable gives to a setting is loaded as it is exactly if it does not stand for a
value which is written in another way; one in a file always is. -/
theorem text_setting_iff (htext : item.asText? = some written)
    (hn : Text.toLower n = item.variableName) {front back : List (String × String)}
    (huntouched : item.Untouched (front ++ back)) (v : String) :
    (∀ explicit, (load files explicit (front ++ back)).isSome = true →
      ∃ c, load files explicit (front ++ (n, v) :: back) = some c ∧
        (item.of c = written v ↔ ¬Setting.Rewritten v)) ∧
      ((load files none (front ++ back)).isSome = true → ∀ (f : Setting.Format) place path,
        Setting.locateFile? files place = some (path, f) →
        files.contents path = .ok (Utf8.encode (f.write item.group item.name v)) →
        ∃ c, load files (some place) (front ++ back) = some c ∧ item.of c = written v) := by
  refine ⟨fun explicit hload => ?_, fun hload f place path hlocate hcontents => ?_⟩
  · obtain ⟨c₀, hc₀⟩ := Option.isSome_iff_exists.mp hload
    exact text_of_environment htext hn huntouched hc₀ v
  · obtain ⟨c₀, hc₀⟩ := Option.isSome_iff_exists.mp hload
    exact text_of_file htext huntouched hc₀ hlocate hcontents

/-- Two files that set the path of the data file to `007`. -/
def numberedFiles : FileTree :=
  (FileTree.empty.set ["work", "asked.toml"]
    (.file (Utf8.encode (Setting.Format.toml.write "store" "data_path" "007")) 0o644)).set
    ["work", "asked.json"]
    (.file (Utf8.encode (Setting.Format.json.write "store" "data_path" "007")) 0o644)

theorem text_setting_numbered :
    Item.dataPath.Untouched [("HOME", "/root")] ∧
    (load numberedFiles none [("HOME", "/root")]).isSome = true ∧
    (∃ c, load numberedFiles none [("HOME", "/root"), ("APP__STORE__DATA_PATH", "d/007")] = some c ∧
      c.dataPath = some "d/007") ∧
    (∃ c, load numberedFiles none [("HOME", "/root"), ("APP__STORE__DATA_PATH", "007")] = some c ∧
      c.dataPath ≠ some "007") ∧
    ∀ place, place ∈ ["asked.toml", "asked.json"] →
      ∃ c, load numberedFiles (some place) [("HOME", "/root")] = some c ∧
        c.dataPath = some "007" := by
  have huntouched : Item.dataPath.Untouched [("HOME", "/root")] := by decide +kernel
  have hload : (load numberedFiles none [("HOME", "/root")]).isSome = true := by decide +kernel
  have hiff := @text_setting_iff _ .dataPath some "APP__STORE__DATA_PATH" numberedFiles rfl
    (by decide +kernel) [("HOME", "/root")] [] huntouched
  refine ⟨huntouched, hload, ?_, ?_, fun place hplace => ?_⟩
  · obtain ⟨c, hc, hpath⟩ := (hiff "d/007").1 none hload
    exact ⟨c, hc, hpath.mpr (Setting.not_rewritten_of_mem (c := '/') (by decide) (by decide))⟩
  · obtain ⟨c, hc, hpath⟩ := (hiff "007").1 none hload
    refine ⟨c, hc, fun hsame => hpath.mp hsame (.whole (n := 7) (by decide +kernel) (by decide))⟩
  · simp only [List.mem_cons, List.not_mem_nil, or_false] at hplace
    rcases hplace with rfl | rfl
    · exact (hiff "007").2 hload .toml _ "asked.toml" (by decide +kernel) (by decide +kernel)
    · exact (hiff "007").2 hload .json _ "asked.json" (by decide +kernel) (by decide +kernel)

/-- A host and a path that look like numbers, and a level that looks like a truth value. -/
theorem text_rewritten :
    load .empty none [("APP__SERVER__HOST", "1.50")] = some { host := "1.5" } ∧
      load .empty none [("APP__STORE__DATA_PATH", "007")] = some { dataPath := some "7" } ∧
      load .empty none [("APP__LOGGING__LEVEL", "TRUE")] = some { logLevel := "true" } := by
  decide +kernel

end Config

end Turnstile
