import Turnstile.Proofs.Command.Addition

/-! Where the data file is. A blank override counts as none, and so does a blank path that a store
is given later. A configured path or directory counts as none only if it is empty, and the path that
a store is made with always counts. So a store has the file that is meant unless the first of the
configured settings that is not empty is blank: its path is then empty, or the file is at the root.
-/

namespace Turnstile

namespace Path

variable {directory name : String}

theorem blank_join (h : Text.blank name = false) : Text.blank (join directory name) = false := by
  unfold join
  split
  · exact h
  · split <;> simp only [Text.blank_append, h, Bool.and_false]

/-- A blank directory puts the name at the root. -/
theorem trim_join_of_blank (hblank : Text.blank directory = true) (hsome : directory ≠ "")
    (hname : isRooted name = false) :
    Text.trim (join directory name) = Text.trim ("/" ++ name) := by
  have hlast : (directory.toList.getLast? == some '/') = false := by
    rw [beq_eq_false_iff_ne]
    intro hslash
    have hmem := List.mem_of_getLast? hslash
    exact absurd (List.all_eq_true.mp hblank _ hmem) (by decide)
  have hempty : directory.isEmpty = false := by simpa using hsome
  rw [join, hname, hempty, hlast, String.append_assoc]
  exact Text.trim_append_of_blank_left hblank _

end Path

namespace Config

variable {setting override dataPath dataDir : Option String} {text : String}

/-- What is not empty is taken for a setting. -/
def taken (setting : Option String) : Option String := setting.filter (!·.isEmpty)

/-- What a setting says. A blank one says nothing. -/
def said (setting : Option String) : Option String := setting.filter (!Text.blank ·)

/-- The file that is meant by these settings. -/
def meant (override dataPath dataDir : Option String) : String :=
  ((said override).or
    ((said dataPath).or ((said dataDir).map (Path.join · dataFileName)))).getD
    (Path.join "." dataFileName)

/-- Nothing overrides the first setting that is taken for one, and it is blank. -/
def Misled (override dataPath dataDir : Option String) : Prop :=
  said override = none ∧
    ∃ text, (taken dataPath).or (taken dataDir) = some text ∧ Text.blank text = true

theorem said_eq (setting : Option String) :
    said setting = (taken setting).filter (!Text.blank ·) := by
  rw [said, taken, Option.filter_filter]
  congr 1
  funext text
  cases htext : text.isEmpty with
  | false => rfl
  | true =>
    rw [String.isEmpty_iff.mp htext]
    rfl

theorem said_of_none (h : taken setting = none) : said setting = none := by
  rw [said_eq, h, Option.filter_none]

theorem said_of_filled (h : taken setting = some text) (hfilled : Text.blank text = false) :
    said setting = some text := by
  rw [said_eq, h]
  exact Option.filter_some_pos (by rw [hfilled]; rfl)

theorem said_of_blank (h : taken setting = some text) (hblank : Text.blank text = true) :
    said setting = none := by
  rw [said_eq, h]
  exact Option.filter_some_neg (by rw [hblank]; decide)

theorem blank_of_said (h : said setting = some text) : Text.blank text = false := by
  simpa using (Option.filter_eq_some_iff.mp h).2

theorem ne_empty_of_taken (h : taken setting = some text) : text ≠ "" := by
  simpa using (Option.filter_eq_some_iff.mp h).2

theorem resolvePath_eq (override dataPath dataDir : Option String) :
    resolvePath override dataPath dataDir =
      (((said override).map Text.trim).or
        ((taken dataPath).or ((taken dataDir).map (Path.join · dataFileName)))).getD
        (Path.join "." dataFileName) := by
  have hoverride : (override.map Text.trim).filter (!·.isEmpty) =
      (said override).map Text.trim := by
    rw [Option.filter_map, said]
    simp only [Function.comp_def, Text.isEmpty_trim]
  rw [resolvePath, hoverride, ← taken, ← taken]
  cases said override with
  | some text => rfl
  | none =>
    cases taken dataPath with
    | some text => rfl
    | none => cases taken dataDir <;> rfl

theorem blank_meant (override dataPath dataDir : Option String) :
    Text.blank (meant override dataPath dataDir) = false := by
  have hname : Text.blank dataFileName = false := by decide
  rw [meant]
  cases hoverride : said override with
  | some text => exact blank_of_said hoverride
  | none =>
    cases hpath : said dataPath with
    | some text => exact blank_of_said hpath
    | none => cases said dataDir <;> exact Path.blank_join hname

theorem trim_resolvePath (h : ¬ Misled override dataPath dataDir) :
    Text.trim (resolvePath override dataPath dataDir) =
      Text.trim (meant override dataPath dataDir) := by
  rw [resolvePath_eq, meant]
  cases hoverride : said override with
  | some text => exact Text.trim_trim text
  | none =>
    have hfilled : ∀ text, (taken dataPath).or (taken dataDir) = some text →
        Text.blank text = false := fun text htext =>
      Bool.eq_false_iff.mpr fun hblank => h ⟨hoverride, text, htext, hblank⟩
    cases hpath : taken dataPath with
    | some text =>
      rw [said_of_filled hpath (hfilled text (by rw [hpath]; rfl))]
      rfl
    | none =>
      rw [said_of_none hpath]
      cases hdir : taken dataDir with
      | some text =>
        rw [said_of_filled hdir (hfilled text (by rw [hpath, hdir]; rfl))]
        rfl
      | none =>
        rw [said_of_none hdir]
        rfl

theorem trim_resolvePath_of_misled (h : Misled override dataPath dataDir) :
    Text.trim (resolvePath override dataPath dataDir) ≠
      Text.trim (meant override dataPath dataDir) := by
  obtain ⟨hoverride, text, htaken, hblank⟩ := h
  cases hpath : taken dataPath with
  | some found =>
    -- The path is the empty one, and what is meant is not blank.
    obtain rfl : found = text := by simpa [hpath] using htaken
    have hempty : Text.trim (resolvePath override dataPath dataDir) = "" := by
      rw [resolvePath_eq, hoverride, hpath]
      exact Text.trim_of_blank hblank
    intro hsame
    rw [hempty, eq_comm, Text.trim_eq_empty_iff, blank_meant] at hsame
    cases hsame
  | none =>
    -- The file is at the root, and no setting says where it is meant to be.
    have hdir : taken dataDir = some text := by simpa [hpath] using htaken
    have hroot : Text.trim (resolvePath override dataPath dataDir) =
        Text.trim ("/" ++ dataFileName) := by
      rw [resolvePath_eq, hoverride, hpath, hdir]
      exact Path.trim_join_of_blank hblank (ne_empty_of_taken hdir) (by decide)
    have hhere : meant override dataPath dataDir = Path.join "." dataFileName := by
      rw [meant, hoverride, said_of_none hpath, said_of_blank hdir hblank]
      rfl
    rw [hroot, hhere]
    decide

theorem normalPath_eq_meant_iff :
    some (Store.normalPath (resolvePath override dataPath dataDir)) =
        some (Text.trim (meant override dataPath dataDir)) ↔
      ¬ Misled override dataPath dataDir := by
  rw [Store.normalPath, Option.some.injEq]
  exact ⟨fun hsame hmisled => trim_resolvePath_of_misled hmisled hsame, trim_resolvePath⟩

end Config

namespace Store

theorem path_setPath_eq (s : Store) (path : String) :
    (s.setPath path).path = if Text.blank path = true then none else some (normalPath path) := by
  rw [setPath, normalPath, Text.isEmpty_trim]

theorem path_new_eq_path_setPath_iff (s : Store) (path : String) (now : Moment) :
    (new (some path) now).path = (s.setPath path).path ↔ Text.blank path = false := by
  rw [path_setPath_eq]
  cases Text.blank path with
  | true => simp [new]
  | false => simp [new]

theorem path_setPath_ne_empty (s : Store) (path : String) : (s.setPath path).path ≠ some "" := by
  rw [path_setPath_eq]
  split
  · simp
  · rename_i hfilled
    rwa [Ne, Option.some.injEq, normalPath, Text.trim_eq_empty_iff]

end Store

namespace Config

/-- A store has the file that is meant by the settings unless a blank one misleads it. The path that
a store is made with and the one that it is given later come to the same unless it is blank, and no
path that is given later is empty. -/
theorem opens_meant_iff (override dataPath dataDir : Option String) (now : Moment) :
    Text.blank (Text.trim (meant override dataPath dataDir)) = false ∧
      ((Store.new (some (resolvePath override dataPath dataDir)) now).path =
          some (Text.trim (meant override dataPath dataDir)) ↔
        ¬ Misled override dataPath dataDir) ∧
      (∀ (c : Config) (s : Surroundings) (files : FileTree) (hasher : Hasher) (store : Store),
        c.openStore s files = .ok (hasher, store) →
          (store.path = some (Text.trim
              (meant (s.environment.lookup pathVariable) c.dataPath c.dataDir)) ↔
            ¬ Misled (s.environment.lookup pathVariable) c.dataPath c.dataDir)) ∧
      ∀ (s : Store) (path : String), (s.setPath path).path ≠ some "" ∧
        ((Store.new (some path) now).path = (s.setPath path).path ↔ Text.blank path = false) := by
  refine ⟨(Text.blank_trim _).trans (blank_meant override dataPath dataDir), ?_, ?_, ?_⟩
  · exact normalPath_eq_meant_iff
  · intro c s files hasher store hopen
    rw [(of_openStore hopen).2.1]
    exact normalPath_eq_meant_iff
  · exact fun s path => ⟨s.path_setPath_ne_empty path, s.path_new_eq_path_setPath_iff path now⟩

/-- The override is blank and the path empty, so that the directory decides. -/
def roomConfig : Config := { dataPath := some "", dataDir := some " /data" }

def roomSurroundings : Surroundings :=
  ⟨[(pathVariable, "  ")], [], ⟨.epoch, "usr_9", "key_9", "tk_9", [], "tag", "request"⟩⟩

theorem opens_meant_room :
    ¬ Misled (some "  ") (some "") (some " /data") ∧
      (Store.new (some (resolvePath (some "  ") (some "") (some " /data"))) .epoch).path =
        some "/data/keygate-data.json" ∧
      ∃ hasher store, roomConfig.openStore roomSurroundings .empty = .ok (hasher, store) ∧
        store.path = some "/data/keygate-data.json" := by
  have hclear : ¬ Misled (some "  ") (some "") (some " /data") := by
    rintro ⟨-, text, htaken, hblank⟩
    cases htaken
    exact absurd hblank (by decide)
  have hmeant : Text.trim (meant (some "  ") (some "") (some " /data")) =
      "/data/keygate-data.json" := by decide
  obtain ⟨-, hmade, hopened, -⟩ := opens_meant_iff (some "  ") (some "") (some " /data") .epoch
  rw [hmeant] at hmade
  refine ⟨hclear, hmade.mpr hclear, ?_⟩
  have hopens : (roomConfig.openStore roomSurroundings .empty).isOk = true := by decide +kernel
  cases hopen : roomConfig.openStore roomSurroundings .empty with
  | error e =>
    rw [hopen] at hopens
    cases hopens
  | ok opened =>
    obtain ⟨hasher, store⟩ := opened
    refine ⟨hasher, store, rfl, ?_⟩
    rw [← hmeant]
    exact (hopened _ _ _ _ _ hopen).mpr hclear

/-- A blank path hides the directory that is set and is kept as an empty one, a blank directory
stands for the root, and a path that is dropped later is kept by a new store. -/
theorem misleads_blank :
    (Store.new (some (resolvePath none (some "  ") (some "/data"))) .epoch).path = some "" ∧
      meant none (some "  ") (some "/data") = "/data/keygate-data.json" ∧
      (Store.new (some (resolvePath none none (some "  "))) .epoch).path =
        some "/keygate-data.json" ∧
      meant none none (some "  ") = "./keygate-data.json" ∧
      ((Store.new none .epoch).setPath "  ").path = none := by
  decide

end Config
end Turnstile
