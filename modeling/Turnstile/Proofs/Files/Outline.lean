import Turnstile.Files.Replace

/-! The outline of a tree of files: its directories and files without what is in the files. Where a
path leads, and which operations fail, is a matter of the outline alone, so a replacement answers
alike in trees of one outline, whatever bytes it writes, and leaves trees of one outline. -/

namespace Turnstile

/-- A file has lost its bytes. -/
def FileNode.outline : FileNode → FileNode
  | .file _ mode => .file [] mode
  | .directory => .directory

namespace FileTree

variable (t : FileTree)

def outline : FileTree := { t with entries := t.entries.map fun e => (e.1, e.2.outline) }

theorem node?_outline (place : Place) :
    t.outline.node? place = (t.node? place).map FileNode.outline := by
  unfold node?
  split
  · rfl
  · rw [outline]
    induction t.entries with
    | nil => rfl
    | cons e rest ih =>
      rw [List.map_cons, List.lookup_cons, List.lookup_cons, ih]
      split <;> rfl

theorem isDirectory_node?_outline (place : Place) :
    (t.outline.node? place == some .directory) = (t.node? place == some .directory) := by
  rw [node?_outline]
  cases t.node? place with
  | none => rfl
  | some node => cases node <;> rfl

@[simp] theorem outline_set (place : Place) (node : FileNode) :
    (t.set place node).outline = t.outline.set place node.outline := by
  simp only [outline, set, List.map_cons, List.filter_map]
  rfl

@[simp] theorem outline_erase (place : Place) :
    (t.erase place).outline = t.outline.erase place := by
  simp only [outline, erase, List.filter_map]
  rfl

/-! ## Where paths lead -/

@[simp] theorem requireDirectory_outline (place : Place) :
    t.outline.requireDirectory place = t.requireDirectory place := by
  rw [requireDirectory, requireDirectory, node?_outline]
  cases t.node? place with
  | none => rfl
  | some node => cases node <;> rfl

@[simp] theorem walk_outline (place : Place) (pieces : List String) :
    t.outline.walk place pieces = t.walk place pieces := by
  induction pieces generalizing place with
  | nil => simp only [walk]
  | cons piece rest ih => simp only [walk, requireDirectory_outline, ih]

@[simp] theorem locate_outline (path : String) : t.outline.locate path = t.locate path := by
  have hstart : t.outline.start path = t.start path := rfl
  simp only [locate, walk_outline, requireDirectory_outline, hstart]

theorem isDirectory_outline (path : String) : t.outline.isDirectory path = t.isDirectory path := by
  rw [isDirectory, isDirectory, locate_outline]
  cases t.locate path with
  | error e => rfl
  | ok target => exact t.isDirectory_node?_outline target.place

/-! ## Operations -/

/-- What is done where a path leads. -/
theorem locate_bind_outline (path : String) {act act' : Target → Except FileError FileTree}
    (h : ∀ target, act' target = (act target).map outline) :
    (t.outline.locate path >>= act') = (t.locate path >>= act).map outline := by
  rw [locate_outline]
  cases t.locate path with
  | error e => rfl
  | ok target => exact h target

theorem makeDirectory_outline (path : String) :
    t.outline.makeDirectory path = (t.makeDirectory path).map outline := by
  refine t.locate_bind_outline path fun target => ?_
  rw [node?_outline]
  cases t.node? target.place with
  | none => exact congrArg Except.ok (t.outline_set target.place .directory).symm
  | some node => rfl

theorem ensureDirectory_outline (path : String) :
    t.outline.ensureDirectory path =
      ((t.ensureDirectory path).1, (t.ensureDirectory path).2.outline) := by
  rw [ensureDirectory, ensureDirectory, makeDirectory_outline, isDirectory_outline]
  cases t.makeDirectory path <;> rfl

theorem makeDirectoriesFrom_outline (steps : Nat) (path : String) :
    t.outline.makeDirectoriesFrom steps path =
      ((t.makeDirectoriesFrom steps path).1, (t.makeDirectoriesFrom steps path).2.outline) := by
  induction steps generalizing t path with
  | zero => rfl
  | succ steps ih =>
    rw [makeDirectoriesFrom, makeDirectoriesFrom, ensureDirectory_outline]
    split
    · rfl
    · rcases t.ensureDirectory path with ⟨e | done, after⟩
      · by_cases hmissing : e = .notFound
        · subst hmissing
          cases Path.parent? path with
          | none => rfl
          | some above =>
            simp only [ih]
            rcases after.makeDirectoriesFrom steps above with ⟨e | done, made⟩
            · rfl
            · exact ensureDirectory_outline made path
        · cases e <;> first | rfl | exact absurd rfl hmissing
      · rfl

theorem makeDirectories_outline (path : String) :
    t.outline.makeDirectories path =
      ((t.makeDirectories path).1, (t.makeDirectories path).2.outline) :=
  t.makeDirectoriesFrom_outline _ path

theorem create_outline (path : String) (mode : Nat) :
    t.outline.create path mode = (t.create path mode).map outline := by
  refine t.locate_bind_outline path fun target => ?_
  simp only [bind, Except.bind, node?_outline]
  split
  · rfl
  · cases t.node? target.place with
    | none => exact congrArg Except.ok (t.outline_set target.place (.file [] mode)).symm
    | some node => rfl

/-- Bytes at the end of a file are none in the outline. -/
theorem append_outline (path : String) (bytes : List UInt8) :
    t.outline.append path [] = (t.append path bytes).map outline := by
  refine t.locate_bind_outline path fun target => ?_
  rw [node?_outline]
  cases t.node? target.place with
  | none => rfl
  | some node =>
    cases node with
    | directory => rfl
    | file old mode =>
      exact congrArg Except.ok (t.outline_set target.place (.file (old ++ bytes) mode)).symm

theorem rename_outline (path newPath : String) :
    t.outline.rename path newPath = (t.rename path newPath).map outline := by
  refine t.locate_bind_outline path fun source => ?_
  refine t.locate_bind_outline newPath fun target => ?_
  simp only [bind, Except.bind, isDirectory_node?_outline]
  rw [node?_outline]
  split
  · rfl
  · cases t.node? source.place with
    | none => rfl
    | some node =>
      cases node with
      | directory => rfl
      | file bytes mode =>
        simp only [Option.map_some, FileNode.outline]
        split
        · rfl
        · split
          · rfl
          · refine congrArg Except.ok ?_
            rw [outline_set, outline_erase]
            rfl

theorem remove_outline (path : String) :
    t.outline.remove path = (t.remove path).map outline := by
  refine t.locate_bind_outline path fun target => ?_
  rw [node?_outline]
  cases t.node? target.place with
  | none => rfl
  | some node =>
    cases node with
    | directory => rfl
    | file old mode => exact congrArg Except.ok (t.outline_erase target.place).symm

end FileTree

namespace Replacement

variable (r : Replacement) (files : FileTree)

/-- The same replacement with nothing to write. -/
def outline : Replacement := { r with bytes := [] }

/-- The temporary file has the name it had. -/
theorem temporary_outline : r.outline.temporary = r.temporary := by
  simp only [temporary, directory, outline]

theorem attempt_outline (answer : Except FileError FileTree) :
    perform.attempt files.outline (answer.map FileTree.outline) =
      ((perform.attempt files answer).1, (perform.attempt files answer).2.outline) := by
  cases answer <;> rfl

theorem perform_outline (step : Step) :
    r.outline.perform files.outline step =
      ((r.perform files step).1, (r.perform files step).2.outline) := by
  cases step with
  | makeDirectories => exact files.makeDirectories_outline r.directory
  | create =>
    rw [perform, perform, temporary_outline, files.create_outline, attempt_outline]
  | write =>
    have hbytes : r.outline.bytes = [] := rfl
    rw [perform, perform, temporary_outline, hbytes, files.append_outline r.temporary r.bytes,
      attempt_outline]
  | sync => rfl
  | rename =>
    have htarget : r.outline.target = r.target := rfl
    rw [perform, perform, temporary_outline, htarget, files.rename_outline, attempt_outline]

theorem performAll_outline (steps : List Step) :
    r.outline.performAll steps files.outline =
      ((r.performAll steps files).1, (r.performAll steps files).2.outline) := by
  induction steps generalizing files with
  | nil => rfl
  | cons step rest ih =>
    rw [performAll, performAll, perform_outline]
    rcases r.perform files step with ⟨e | done, after⟩
    · rfl
    · exact ih after

theorem cleanUp_outline : r.outline.cleanUp files.outline = (r.cleanUp files).outline := by
  have hremove : files.outline.remove r.outline.temporary =
      (files.remove r.temporary).map FileTree.outline := by
    rw [temporary_outline, FileTree.remove_outline]
  unfold cleanUp
  rw [hremove]
  cases files.remove r.temporary <;> rfl

/-- What a replacement answers does not depend on any bytes. -/
theorem run_outline :
    r.outline.run files.outline = ((r.run files).1, (r.run files).2.outline) := by
  rw [run, run, perform_outline]
  rcases r.perform files .makeDirectories with ⟨e | ⟨⟩, made⟩
  · rfl
  · dsimp only
    rw [performAll_outline]
    rcases r.performAll steps made with ⟨e | ⟨⟩, after⟩
    · dsimp only
      rw [cleanUp_outline]
    · rfl

/-- Replacements that differ in their bytes, in trees that differ in the bytes of their files. -/
theorem run_congr {files files' : FileTree} (h : files.outline = files'.outline)
    (target tag : String) (bytes bytes' : List UInt8) :
    (run ⟨target, bytes, tag⟩ files).1 = (run ⟨target, bytes', tag⟩ files').1 ∧
      (run ⟨target, bytes, tag⟩ files).2.outline =
        (run ⟨target, bytes', tag⟩ files').2.outline := by
  have hrun (bytes : List UInt8) (files : FileTree) :
      run ⟨target, [], tag⟩ files.outline =
        ((run ⟨target, bytes, tag⟩ files).1, (run ⟨target, bytes, tag⟩ files).2.outline) :=
    run_outline ⟨target, bytes, tag⟩ files
  have hleft := hrun bytes files
  rw [h, hrun bytes' files'] at hleft
  obtain ⟨hanswer, houtline⟩ := Prod.mk.inj hleft
  exact ⟨hanswer.symm, houtline.symm⟩

end Replacement
end Turnstile
