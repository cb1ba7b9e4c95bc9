import Turnstile.Proofs.Files.Descent
import Mathlib.Logic.Relation

/-! A replacement as a sequence of steps, any of which may fail and after any of which the process
may stop. What the steps keep is said phase by phase: the files are those of the start, with the new
bytes in the temporary file while they are written, and at the target once they are in place. -/

namespace Turnstile.Replacement

/-! ## Phases and moves -/

/-- How far a replacement is. -/
inductive Phase where
  | preparing
  | creating
  | writing (rest : List UInt8)
  | syncing
  | placing
  | cleaning (e : FileError)
  | done
  | failed (f : Failure)

/-- The directory of the target and the paths above it. -/
inductive Above (r : Replacement) : String → Prop
  | directory : Above r r.directory
  | parent {path above : String} (h : Above r path) (hparent : Path.parent? path = some above) :
      Above r above

/-- One move: a step is carried out, in part where it has parts, or fails. -/
inductive Moves (r : Replacement) : Phase × FileTree → Phase × FileTree → Prop
  | makeDirectory {u after : FileTree} {path : String} (habove : r.Above path)
      (h : u.makeDirectory path = .ok after) :
      Moves r (.preparing, u) (.preparing, after)
  | prepared {u : FileTree} : Moves r (.preparing, u) (.creating, u)
  | prepareFails {u : FileTree} (e : FileError) :
      Moves r (.preparing, u) (.failed (.preparing e), u)
  | create {u after : FileTree} (h : u.create r.temporary mode = .ok after) :
      Moves r (.creating, u) (.writing r.bytes, after)
  | createFails {u : FileTree} (e : FileError) : Moves r (.creating, u) (.cleaning e, u)
  | write {u after : FileTree} {chunk rest : List UInt8}
      (h : u.append r.temporary chunk = .ok after) :
      Moves r (.writing (chunk ++ rest), u) (.writing rest, after)
  | written {u : FileTree} : Moves r (.writing [], u) (.syncing, u)
  | writeFails {u : FileTree} {rest : List UInt8} (e : FileError) :
      Moves r (.writing rest, u) (.cleaning e, u)
  | synced {u : FileTree} : Moves r (.syncing, u) (.placing, u)
  | syncFails {u : FileTree} (e : FileError) : Moves r (.syncing, u) (.cleaning e, u)
  | rename {u after : FileTree} (h : u.rename r.temporary r.target = .ok after) :
      Moves r (.placing, u) (.done, after)
  | renameFails {u : FileTree} (e : FileError) : Moves r (.placing, u) (.cleaning e, u)
  | cleanUp {u : FileTree} {e : FileError} :
      Moves r (.cleaning e, u) (.failed (.writing e), r.cleanUp u)

/-- The phase and the tree at some point of a replacement that starts with these files. A process
that stops leaves the tree of the point where it stops. -/
def Reaches (r : Replacement) (files : FileTree) : Phase × FileTree → Prop :=
  Relation.ReflTransGen r.Moves (.preparing, files)

/-- How a replacement with this answer ends. -/
def Phase.ofAnswer : Except Failure Unit → Phase
  | .ok () => .done
  | .error f => .failed f

variable {r : Replacement} {files u after : FileTree}

/-! ## The run without a stop -/

theorem reaches_ensureDirectory {path : String} (habove : r.Above path) :
    Relation.ReflTransGen r.Moves (.preparing, u) (.preparing, (u.ensureDirectory path).2) := by
  unfold FileTree.ensureDirectory
  split
  · rename_i hmake
    exact .single (.makeDirectory habove hmake)
  · exact .refl

theorem reaches_makeDirectoriesFrom {steps : Nat} {path : String} (habove : r.Above path) :
    Relation.ReflTransGen r.Moves (.preparing, u)
      (.preparing, (u.makeDirectoriesFrom steps path).2) := by
  induction steps generalizing path u with
  | zero => exact .refl
  | succ steps ih =>
    unfold FileTree.makeDirectoriesFrom
    have hfirst := reaches_ensureDirectory (u := u) habove
    split
    · exact .refl
    · split
      · rename_i hmissing
        rw [hmissing] at hfirst
        split
        · exact hfirst
        · rename_i hparent
          have hparents := ih (u := (u.ensureDirectory path).2) (habove.parent hparent)
          rw [hmissing] at hparents
          split
          · rename_i hdone
            rw [hdone] at hparents
            exact (hfirst.trans hparents).trans (reaches_ensureDirectory habove)
          · exact hfirst.trans hparents
      · exact hfirst

theorem reaches_performAll (h : r.Reaches files (.creating, u)) :
    (∃ after, r.performAll steps u = (.ok (), after) ∧ r.Reaches files (.done, after)) ∨
      ∃ e after, r.performAll steps u = (.error e, after) ∧
        r.Reaches files (.cleaning e, after) := by
  simp only [steps, performAll, perform]
  cases hcreate : u.create r.temporary mode with
  | error e => exact .inr ⟨e, u, rfl, h.tail (.createFails e)⟩
  | ok created =>
    have hwriting : r.Reaches files (.writing (r.bytes ++ []), created) := by
      rw [List.append_nil]
      exact h.tail (.create hcreate)
    simp only [perform.attempt]
    cases happend : created.append r.temporary r.bytes with
    | error e => exact .inr ⟨e, created, rfl, hwriting.tail (.writeFails e)⟩
    | ok written =>
      have hplacing := ((hwriting.tail (.write happend)).tail .written).tail .synced
      simp only
      cases hrename : written.rename r.temporary r.target with
      | error e => exact .inr ⟨e, written, rfl, hplacing.tail (.renameFails e)⟩
      | ok renamed => exact .inl ⟨renamed, rfl, hplacing.tail (.rename hrename)⟩

/-- A run that nothing stops is one of the sequences of moves, up to its end. -/
theorem reaches_run : r.Reaches files (.ofAnswer (r.run files).1, (r.run files).2) := by
  have hprepare : r.Reaches files (.preparing, (r.perform files .makeDirectories).2) :=
    reaches_makeDirectoriesFrom .directory
  unfold run
  split
  · rename_i e u hfail
    rw [hfail] at hprepare
    exact hprepare.tail (.prepareFails e)
  · rename_i u hprepared
    rw [hprepared] at hprepare
    rcases reaches_performAll (hprepare.tail .prepared) with
      ⟨after, hall, hdone⟩ | ⟨e, after, hall, hcleaning⟩
    · rw [hall]
      exact hdone
    · have hfailed : r.Reaches files (.failed (.writing e), r.cleanUp after) :=
        hcleaning.tail .cleanUp
      simpa only [hall, Phase.ofAnswer] using hfailed

/-! ## Names -/

def temporaryName (r : Replacement) : String :=
  "." ++ (Path.fileName? r.target).getD "records" ++ "." ++ r.tag ++ ".tmp"

theorem length_temporaryName :
    ((Path.fileName? r.target).getD "records").length + 5 < r.temporaryName.length := by
  simp only [temporaryName, String.length_append]
  have hdot : ".".length = 1 := rfl
  have hend : ".tmp".length = 4 := rfl
  omega

theorem temporaryName_ne (r : Replacement) {name : String} (h : name.length ≤ 5) :
    r.temporaryName ≠ name := by
  intro heq
  have := length_temporaryName (r := r)
  rw [heq] at this
  omega

theorem isName_temporaryName : Path.isName r.temporaryName = true := by
  have hblank : r.temporaryName ≠ "" := temporaryName_ne r (by decide)
  have hdot : r.temporaryName ≠ "." := temporaryName_ne r (by decide)
  simp [Path.isName, hblank, hdot]

theorem temporaryName_ne_of_fileName? {name : String} (h : Path.fileName? r.target = some name) :
    name ≠ r.temporaryName := by
  intro heq
  have := length_temporaryName (r := r)
  rw [h, Option.getD_some, heq] at this
  omega

theorem not_mem_temporaryName (htag : '/' ∉ r.tag.toList) : '/' ∉ r.temporaryName.toList := by
  have hname : '/' ∉ ((Path.fileName? r.target).getD "records").toList := by
    cases hname : Path.fileName? r.target with
    | none => decide
    | some name =>
      rw [Option.getD_some]
      exact Path.not_mem_of_mem_pieces (Path.mem_pieces_of_fileName? hname)
  simp only [temporaryName, String.toList_append, List.mem_append, not_or]
  exact ⟨⟨⟨⟨by decide, hname⟩, by decide⟩, htag⟩, by decide⟩

/-- The temporary file stands under its name, which is not too long. -/
theorem temporary_leads (htag : '/' ∉ r.tag.toList) {g : FileTree.Target}
    (h : u.locate r.temporary = .ok g) :
    g.name = some r.temporaryName ∧ FileTree.checkName r.temporaryName = .ok () := by
  have hname : r.temporaryName.isEmpty = false := by
    have hblank : r.temporaryName ≠ "" := temporaryName_ne r (by decide)
    simpa using hblank
  have hlast := Path.kept_join r.directory (not_mem_temporaryName htag) hname
  change (Path.kept r.temporary).getLast? = _ at hlast
  cases (FileTree.locate_eq_ok_iff.mp h).2 with
  | root hkept => simp [hkept] at hlast
  | dotted hdotted hdot =>
    rw [hlast, Option.some.injEq] at hdotted
    rcases hdot with rfl | rfl
    · exact absurd hdotted (temporaryName_ne r (by decide))
    · exact absurd hdotted (temporaryName_ne r (by decide))
  | named hnamed _ _ _ _ hcheck =>
    rw [hlast] at hnamed
    cases hnamed
    exact ⟨rfl, hcheck⟩

/-- The temporary file has a longer name than the target. Where it is too long, a run makes the
directories and then fails. -/
theorem run_of_long (htag : '/' ∉ r.tag.toList)
    (hlong : FileTree.nameBound < r.temporaryName.utf8ByteSize) (files : FileTree) :
    (∃ f, (r.run files).1 = .error f) ∧
      (r.run files).2 = (files.makeDirectories r.directory).2 := by
  have hlost (u : FileTree) : ∃ e, u.locate r.temporary = .error e := by
    cases hlocate : u.locate r.temporary with
    | error e => exact ⟨e, rfl⟩
    | ok g =>
      obtain ⟨-, hcheck⟩ := temporary_leads htag hlocate
      rw [FileTree.checkName, if_pos hlong] at hcheck
      cases hcheck
  unfold run
  split
  · rename_i e u hfail
    rw [perform] at hfail
    rw [hfail]
    exact ⟨⟨_, rfl⟩, rfl⟩
  · rename_i u hprepared
    rw [perform] at hprepared
    obtain ⟨e, hlocate⟩ := hlost u
    have hcreate : u.create r.temporary mode = .error e := by
      rw [FileTree.create, hlocate]
      rfl
    have hremove : u.remove r.temporary = .error e := by
      rw [FileTree.remove, hlocate]
      rfl
    have hall : r.performAll steps u = (.error e, u) := by
      simp only [steps, performAll, perform, hcreate, perform.attempt]
    have hclean : r.cleanUp u = u := by
      unfold cleanUp
      rw [hremove]
    rw [hall, hprepared]
    dsimp only
    exact ⟨⟨_, rfl⟩, hclean⟩

/-- Where a target that can be a file stands, it has another name than the temporary file. -/
theorem target_ne_temporary (htag : '/' ∉ r.tag.toList) (hu : u.WellFormed)
    {g g' : FileTree.Target} (h : u.locate r.target = .ok g) (h' : u.locate r.temporary = .ok g')
    (hno : u.node? g.place ≠ some .directory) : g.place ≠ g'.place := by
  obtain ⟨hname', -⟩ := temporary_leads htag h'
  intro hplace
  have hlast := congrArg List.getLast? hplace
  cases (FileTree.locate_eq_ok_iff.mp h).2 with
  | root => exact hno rfl
  | dotted hkept hdot hwalk =>
    exact hno ((FileTree.Leads.dotted hkept hdot hwalk).directory hu rfl)
  | named hkept hdot hdots =>
    have hfile := Path.fileName?_of_kept hkept hdot hdots
    simp only [FileTree.Target.place, hname', Option.toList_some, List.getLast?_concat,
      Option.some.injEq] at hlast
    exact temporaryName_ne_of_fileName? hfile hlast

/-! ## What every move keeps -/

/-- No file has the name of the temporary file. -/
def Unused (r : Replacement) (files : FileTree) : Prop :=
  ∀ place, files.file? place ≠ none → place.getLast? ≠ some r.temporaryName

theorem unused_empty : r.Unused .empty := by
  intro place hfile
  have hno := FileTree.not_directory_of_file? hfile
  have hnode := FileTree.node?_ne_none_of_file? hfile
  have hempty := FileTree.node?_empty (FileTree.ne_nil_of_not_directory hno)
  rw [hempty] at hno hnode
  split at hnode
  · rename_i hwork
    exact absurd (if_pos hwork) hno
  · exact absurd rfl hnode

/-- The name of the temporary file does not depend on the bytes. -/
theorem Unused.congr {r' : Replacement} (h : r.Unused files) (htarget : r'.target = r.target)
    (htag : r'.tag = r.tag) : r'.Unused files := by
  intro place hfile
  rw [temporaryName, htarget, htag]
  exact h place hfile

theorem Unused.set {place : Place} {bytes : List UInt8} {m : Nat} (h : r.Unused files)
    (hplace : place ≠ []) (hname : place.getLast? ≠ some r.temporaryName) :
    r.Unused (files.set place (.file bytes m)) := by
  intro other hfile
  rw [FileTree.file?_set_file hplace] at hfile
  split at hfile
  · rename_i heq
    rwa [heq]
  · exact h other hfile

/-- Directories stay, and a new one is one that a path above the target names. -/
structure Around (r : Replacement) (files u : FileTree) : Prop where
  grown : FileTree.Grown files u
  wellFormed : u.WellFormed
  made : ∀ place, u.node? place = some .directory → files.node? place = some .directory ∨
    files.node? place = none ∧ ∃ path g, r.Above path ∧ u.locate path = .ok g ∧ g.name ≠ none ∧
      g.place = place

def SameFiles (files u : FileTree) : Prop := ∀ place, u.file? place = files.file? place

/-- The files of the start and these bytes in the temporary file. -/
def Staged (r : Replacement) (files : FileTree) (bytes : List UInt8) (u : FileTree) : Prop :=
  ∃ g, u.locate r.temporary = .ok g ∧ files.file? g.place = none ∧
    ∀ place, u.file? place = if place = g.place then some (bytes, mode) else files.file? place

/-- The files of the start, save that the target holds the new bytes. -/
def Replaced (r : Replacement) (files u : FileTree) : Prop :=
  ∃ g, u.locate r.target = .ok g ∧ g.name ≠ none ∧ g.slashed = false ∧
    ∀ place, u.file? place = if place = g.place then some (r.bytes, mode) else files.file? place

/-- The files in a phase. -/
def Holds (r : Replacement) (files : FileTree) : Phase → FileTree → Prop
  | .preparing, u | .creating, u | .failed _, u => SameFiles files u
  | .writing rest, u => ∃ written, written ++ rest = r.bytes ∧ r.Staged files written u
  | .syncing, u | .placing, u => r.Staged files r.bytes u
  | .cleaning _, u => SameFiles files u ∨ ∃ written, r.Staged files written u
  | .done, u => r.Replaced files u

namespace Around

variable {place : Place} {node : FileNode} {bytes : List UInt8} {m : Nat}

theorem refl (h : files.WellFormed) : r.Around files files :=
  ⟨.refl files, h, fun _ hdirectory => .inl hdirectory⟩

/-- A directory of the tree is still one that was there or that a path above the target names. -/
theorem made_of_grown (h : r.Around files u) (hgrown : FileTree.Grown u after)
    (hdirectory : u.node? place = some .directory) :
    files.node? place = some .directory ∨
      files.node? place = none ∧ ∃ path g, r.Above path ∧ after.locate path = .ok g ∧
        g.name ≠ none ∧ g.place = place := by
  rcases h.made place hdirectory with hfiles | ⟨hnone, path, g, habove, hlocate, hname, hplace⟩
  · exact .inl hfiles
  · exact .inr ⟨hnone, path, g, habove, FileTree.locate_mono hgrown hlocate, hname, hplace⟩

/-- A file in a directory changes no directory. -/
theorem setFile (h : r.Around files u) (hin : u.node? place.dropLast = some .directory)
    (hno : u.node? place ≠ some .directory) : r.Around files (u.set place (.file bytes m)) := by
  have hgrown : FileTree.Grown u (u.set place (.file bytes m)) := .set hno
  refine ⟨h.grown.trans hgrown, h.wellFormed.set hin hno, ?_⟩
  intro other hother
  have hne : other ≠ place := by
    rintro rfl
    rw [FileTree.node?_set_self (FileTree.ne_nil_of_not_directory hno)] at hother
    cases hother
  rw [FileTree.node?_set_of_ne hne] at hother
  exact h.made_of_grown hgrown hother

theorem erase (h : r.Around files u) (hno : u.node? place ≠ some .directory) :
    r.Around files (u.erase place) := by
  have hgrown : FileTree.Grown u (u.erase place) := .erase hno
  refine ⟨h.grown.trans hgrown, h.wellFormed.erase hno, ?_⟩
  intro other hother
  have hne : other ≠ place := by
    rintro rfl
    rw [FileTree.node?_erase_self (FileTree.ne_nil_of_not_directory hno)] at hother
    cases hother
  rw [FileTree.node?_erase_of_ne hne] at hother
  exact h.made_of_grown hgrown hother

/-- A directory that is made was missing, and stands in a directory. -/
theorem makeDirectory (h : r.Around files u) (hsame : SameFiles files u) {path : String}
    (habove : r.Above path) (hmake : u.makeDirectory path = .ok after) :
    r.Around files after ∧ SameFiles files after := by
  obtain ⟨g, hlocate, hnone, rfl⟩ := FileTree.makeDirectory_eq_ok hmake
  have hno : u.node? g.place ≠ some .directory := by rw [hnone]; nofun
  obtain ⟨hin, hname⟩ := FileTree.stands_of_locate h.wellFormed hlocate hno
  have hgrown : FileTree.Grown u (u.set g.place .directory) := .set hno
  have hplace := FileTree.ne_nil_of_not_directory hno
  refine ⟨⟨h.grown.trans hgrown, h.wellFormed.set hin hno, ?_⟩, ?_⟩
  · intro other hother
    by_cases heq : other = g.place
    · subst heq
      have hbefore : files.node? g.place = none := by
        apply FileTree.node?_eq_none
        · rw [← hsame, FileTree.file?, hnone]
        · intro hdirectory
          exact hno (h.grown.directories _ hdirectory)
      exact .inr ⟨hbefore, path, g, habove, FileTree.locate_mono hgrown hlocate, hname, rfl⟩
    · rw [FileTree.node?_set_of_ne heq] at hother
      exact h.made_of_grown hgrown hother
  · intro other
    rw [FileTree.file?_set_directory (by rw [FileTree.file?, hnone]) hplace, hsame]

theorem create (h : r.Around files u) (hcreate : u.create r.temporary mode = .ok after) :
    r.Around files after := by
  obtain ⟨g, hlocate, hnone, rfl⟩ := FileTree.create_eq_ok hcreate
  have hno : u.node? g.place ≠ some .directory := by rw [hnone]; nofun
  exact h.setFile (FileTree.stands_of_locate h.wellFormed hlocate hno).1 hno

theorem append (h : r.Around files u) (happend : u.append r.temporary bytes = .ok after) :
    r.Around files after := by
  obtain ⟨g, old, m, hlocate, hold, rfl⟩ := FileTree.append_eq_ok happend
  have hno := FileTree.not_directory_of_file? (hold ▸ Option.some_ne_none _)
  exact h.setFile (FileTree.stands_of_locate h.wellFormed hlocate hno).1 hno

theorem rename (h : r.Around files u) (hrename : u.rename r.temporary r.target = .ok after) :
    r.Around files after := by
  obtain ⟨g, target, bytes, m, hlocate, htarget, -, -, hbytes, hno, rfl⟩ :=
    FileTree.rename_eq_ok hrename
  have hfile := FileTree.not_directory_of_file? (hbytes ▸ Option.some_ne_none _)
  have hno' := FileTree.erase_not_directory (FileTree.ne_nil_of_not_directory hfile) hno
  obtain ⟨hin, -⟩ := FileTree.stands_of_locate h.wellFormed htarget hno
  exact (h.erase hfile).setFile ((FileTree.Grown.erase hfile).directories _ hin) hno'

theorem cleanUp (h : r.Around files u) : r.Around files (r.cleanUp u) := by
  unfold Replacement.cleanUp
  split
  · rename_i after hremove
    obtain ⟨g, hlocate, hfile, rfl⟩ := FileTree.remove_eq_ok hremove
    exact h.erase (FileTree.not_directory_of_file? hfile)
  · exact h

end Around

/-! ## Moves -/

theorem staged_of_create (hsame : SameFiles files u)
    (hcreate : u.create r.temporary mode = .ok after) : r.Staged files [] after := by
  obtain ⟨g, hlocate, hnone, rfl⟩ := FileTree.create_eq_ok hcreate
  have hno : u.node? g.place ≠ some .directory := by rw [hnone]; nofun
  refine ⟨g, FileTree.locate_mono (.set hno) hlocate, ?_, ?_⟩
  · rw [← hsame, FileTree.file?, hnone]
  · intro place
    rw [FileTree.file?_set_file (FileTree.ne_nil_of_not_directory hno), hsame]

theorem staged_of_append {written chunk : List UInt8} (hstaged : r.Staged files written u)
    (happend : u.append r.temporary chunk = .ok after) :
    r.Staged files (written ++ chunk) after := by
  obtain ⟨g, hlocate, habsent, hfiles⟩ := hstaged
  obtain ⟨g', old, m, hlocate', hold, rfl⟩ := FileTree.append_eq_ok happend
  rw [hlocate, Except.ok.injEq] at hlocate'
  subst hlocate'
  have hno := FileTree.not_directory_of_file? (hold ▸ Option.some_ne_none _)
  rw [hfiles, if_pos rfl, Option.some.injEq, Prod.mk.injEq] at hold
  obtain ⟨rfl, rfl⟩ := hold
  refine ⟨g, FileTree.locate_mono (.set hno) hlocate, habsent, ?_⟩
  intro place
  rw [FileTree.file?_set_file (FileTree.ne_nil_of_not_directory hno), hfiles]
  split <;> rfl

theorem replaced_of_rename (hstaged : r.Staged files r.bytes u)
    (hrename : u.rename r.temporary r.target = .ok after) : r.Replaced files after := by
  obtain ⟨g, hlocate, habsent, hfiles⟩ := hstaged
  obtain ⟨g', target, bytes, m, hlocate', htarget, hname, hslashed, hbytes, hno, rfl⟩ :=
    FileTree.rename_eq_ok hrename
  rw [hlocate, Except.ok.injEq] at hlocate'
  subst hlocate'
  have hfile := FileTree.not_directory_of_file? (hbytes ▸ Option.some_ne_none _)
  rw [hfiles, if_pos rfl, Option.some.injEq, Prod.mk.injEq] at hbytes
  obtain ⟨rfl, rfl⟩ := hbytes
  have hno' := FileTree.erase_not_directory (FileTree.ne_nil_of_not_directory hfile) hno
  refine ⟨target, ?_, hname, hslashed, ?_⟩
  · exact FileTree.locate_mono ((FileTree.Grown.erase hfile).trans (.set hno')) htarget
  · intro place
    rw [FileTree.file?_set_file (FileTree.ne_nil_of_not_directory hno'),
      FileTree.file?_erase (FileTree.ne_nil_of_not_directory hfile), hfiles]
    split
    · rfl
    · split
      · rename_i heq
        rw [heq, habsent]
      · rfl

theorem cleanUp_of_locate {g : FileTree.Target} (hlocate : u.locate r.temporary = .ok g)
    (hfile : u.file? g.place ≠ none) : r.cleanUp u = u.erase g.place := by
  have hremove := FileTree.remove_of_locate hlocate hfile
  unfold cleanUp
  rw [hremove]

theorem sameFiles_of_cleanUp (htag : '/' ∉ r.tag.toList) (hunused : r.Unused files)
    (hfiles : SameFiles files u ∨ ∃ written, r.Staged files written u) :
    SameFiles files (r.cleanUp u) := by
  rcases hfiles with hsame | ⟨written, g, hlocate, habsent, hfiles⟩
  · unfold cleanUp
    split
    · -- a file to remove would have been there under the name from the start
      rename_i after hremove
      obtain ⟨g, hlocate, hfile, -⟩ := FileTree.remove_eq_ok hremove
      obtain ⟨hname, -⟩ := temporary_leads htag hlocate
      rw [hsame] at hfile
      refine absurd ?_ (hunused _ hfile)
      rw [FileTree.Target.place, hname, Option.toList_some, List.getLast?_concat]
    · exact hsame
  · have hfile : u.file? g.place ≠ none := by
      rw [hfiles, if_pos rfl]
      exact Option.some_ne_none _
    have hno := FileTree.not_directory_of_file? hfile
    intro place
    rw [cleanUp_of_locate hlocate hfile,
      FileTree.file?_erase (FileTree.ne_nil_of_not_directory hno), hfiles]
    split
    · rename_i heq
      rw [heq, habsent]
    · rfl

variable (htag : '/' ∉ r.tag.toList) (hunused : r.Unused files)

include htag hunused

theorem holds_of_moves {phase phase' : Phase} (hmove : r.Moves (phase, u) (phase', after))
    (h : r.Around files u) (hholds : r.Holds files phase u) :
    r.Around files after ∧ r.Holds files phase' after := by
  cases hmove with
  | makeDirectory habove hmake => exact h.makeDirectory hholds habove hmake
  | prepared => exact ⟨h, hholds⟩
  | prepareFails => exact ⟨h, hholds⟩
  | create hcreate => exact ⟨h.create hcreate, [], rfl, staged_of_create hholds hcreate⟩
  | createFails => exact ⟨h, .inl hholds⟩
  | @write _ _ chunk rest happend =>
    obtain ⟨written, hwritten, hstaged⟩ := hholds
    refine ⟨h.append happend, written ++ chunk, ?_, staged_of_append hstaged happend⟩
    rw [List.append_assoc, hwritten]
  | written =>
    obtain ⟨written, hwritten, hstaged⟩ := hholds
    rw [List.append_nil] at hwritten
    rw [hwritten] at hstaged
    exact ⟨h, hstaged⟩
  | writeFails =>
    obtain ⟨written, -, hstaged⟩ := hholds
    exact ⟨h, .inr ⟨written, hstaged⟩⟩
  | synced => exact ⟨h, hholds⟩
  | syncFails => exact ⟨h, .inr ⟨_, hholds⟩⟩
  | rename hrename => exact ⟨h.rename hrename, replaced_of_rename hholds hrename⟩
  | renameFails => exact ⟨h, .inr ⟨_, hholds⟩⟩
  | cleanUp => exact ⟨h.cleanUp, sameFiles_of_cleanUp htag hunused hholds⟩

/-- What holds in its phase at every point. -/
theorem holds_of_reaches (hfiles : files.WellFormed) {phase : Phase}
    (h : r.Reaches files (phase, u)) : r.Around files u ∧ r.Holds files phase u := by
  have hpoint : ∀ point, r.Reaches files point →
      r.Around files point.2 ∧ r.Holds files point.1 point.2 := by
    intro point hreaches
    induction hreaches with
    | refl => exact ⟨.refl hfiles, fun _ => rfl⟩
    | tail _ hmove ih => exact holds_of_moves htag hunused hmove ih.1 ih.2
  exact hpoint (phase, u) h

end Turnstile.Replacement
