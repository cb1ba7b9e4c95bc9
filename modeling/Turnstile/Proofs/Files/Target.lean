import Turnstile.Proofs.Files.Replacement

/-! What a read of the target says while it is being replaced. It says what it said at the start, or
it gives the new bytes; only where the path did not lead anywhere at the start can the new
directories change more, and then only if the path goes up by `..` or has a name that is too long.
-/

namespace Turnstile.Replacement

variable {r : Replacement} {files u : FileTree} {path : String}

/-! ## Places above and beside the target -/

theorem names_directory : Path.names r.directory = (Path.names r.target).dropLast := by
  unfold directory
  cases hparent : Path.parent? r.target with
  | none =>
    have hnames := Path.names_of_parent?_eq_none hparent
    rw [hnames]
    rfl
  | some above =>
    obtain ⟨hnames, -⟩ := Path.parent?_eq_some hparent
    simp only
    split
    · rename_i hempty
      rw [← hnames, String.isEmpty_iff.mp hempty]
      rfl
    · exact hnames

theorem directory_isEmpty : r.directory.isEmpty = false := by
  unfold directory
  split
  · split
    · rfl
    · rename_i hne
      simpa using hne
  · rfl

/-- The directory is looked for where the target is, save for the root itself. -/
theorem isRooted_directory : Path.isRooted r.directory = Path.isRooted r.target ∨
    Path.names r.target = [] ∧ Path.isRooted r.target = true := by
  unfold directory
  cases hparent : Path.parent? r.target with
  | none =>
    cases hrooted : Path.isRooted r.target with
    | false => exact .inl rfl
    | true => exact .inr ⟨Path.names_of_parent?_eq_none hparent, rfl⟩
  | some above =>
    obtain ⟨-, hrooted⟩ := Path.parent?_eq_some hparent
    left
    rw [← hrooted]
    simp only
    split
    · rename_i hempty
      rw [String.isEmpty_iff.mp hempty]
      rfl
    · rfl

theorem names_of_above (h : r.Above path) :
    Path.names path <+: (Path.names r.target).dropLast ∧
      Path.isRooted path = Path.isRooted r.directory := by
  induction h with
  | directory => exact ⟨names_directory ▸ List.prefix_rfl, rfl⟩
  | parent _ hparent ih =>
    obtain ⟨hnames, hrooted⟩ := Path.parent?_eq_some hparent
    rw [hnames, hrooted]
    exact ⟨(List.dropLast_prefix _).trans ih.1, ih.2⟩

theorem names_temporary (htag : '/' ∉ r.tag.toList) :
    Path.names r.temporary = (Path.names r.target).dropLast ++ [r.temporaryName] := by
  change Path.names (Path.join r.directory r.temporaryName) = _
  rw [Path.names_join _ (not_mem_temporaryName htag) isName_temporaryName, names_directory]

theorem isRooted_temporary (htag : '/' ∉ r.tag.toList) :
    Path.isRooted r.temporary = Path.isRooted r.directory := by
  change Path.isRooted (Path.join r.directory r.temporaryName) = _
  exact Path.isRooted_join (not_mem_temporaryName htag) directory_isEmpty

/-! ## Targets that never go up -/

section Descent

variable (hdown : ".." ∉ Path.names r.target)

include hdown

/-- No directory is made where a target stands that never goes up. -/
theorem not_made {g : FileTree.Target} (habove : r.Above path) (hl : u.locate path = .ok g)
    (hname : g.name ≠ none) : g.place ≠ u.start r.target ++ Path.names r.target := by
  obtain ⟨hway, hrooted⟩ := names_of_above habove
  have hshort : ".." ∉ Path.names path :=
    fun h => hdown (List.dropLast_subset _ (hway.subset h))
  have hnames : Path.names path ≠ [] := FileTree.names_ne_nil_of_named hl hname
  have hlength := hway.length_le
  have hpos := List.length_pos_iff.mpr hnames
  rw [List.length_dropLast] at hlength
  intro hplace
  rw [FileTree.locate_place hshort hl, FileTree.start, FileTree.start, hrooted] at hplace
  rcases isRooted_directory (r := r) with hsame | ⟨hnone, -⟩
  · rw [hsame, List.append_cancel_left_eq] at hplace
    rw [hplace] at hlength hpos
    omega
  · rw [hnone, List.length_nil] at hlength
    omega

/-- The temporary file is not on the way of a target that never goes up. -/
theorem temporary_not_on_way (htag : '/' ∉ r.tag.toList) {g : FileTree.Target}
    (hl : u.locate r.temporary = .ok g) {l : List String} (hway : l <+: Path.names r.target) :
    u.start r.target ++ l ≠ g.place := by
  have hnames := names_temporary htag
  have hshort : ".." ∉ Path.names r.temporary := by
    rw [hnames, List.mem_append, List.mem_singleton, not_or]
    exact ⟨fun h => hdown (List.dropLast_subset _ h), (temporaryName_ne r (by decide)).symm⟩
  intro hplace
  rw [FileTree.locate_place hshort hl, hnames, FileTree.start, FileTree.start,
    isRooted_temporary htag] at hplace
  rcases isRooted_directory (r := r) with hsame | ⟨hnone, hrooted⟩
  · rw [hsame, List.append_cancel_left_eq] at hplace
    have hlength := congrArg List.length hplace
    rw [List.length_append, List.length_dropLast, List.length_singleton] at hlength
    have hwhole : l = Path.names r.target := hway.eq_of_length_le (by omega)
    have hlast := Path.fileName?_eq_getLast? hdown
    rw [← hwhole, hplace, List.getLast?_concat] at hlast
    exact temporaryName_ne_of_fileName? hlast rfl
  · rw [hnone, List.prefix_nil] at hway
    rw [hrooted, hway, if_pos rfl] at hplace
    simp at hplace

end Descent

/-! ## Reads of the target -/

/-- The files of the start, save for what the temporary file holds. -/
def Untouched (r : Replacement) (files u : FileTree) : Prop :=
  SameFiles files u ∨ ∃ written, r.Staged files written u

/-- What a read of the target says at some point, against what it said at the start. -/
inductive Reads (r : Replacement) (files u : FileTree) : Prop
  | same (h : u.contents r.target = files.contents r.target)
  | new (h : u.contents r.target = .ok r.bytes)
  /-- Nothing was there and nothing is, but the read gets as far as a name that is too long. -/
  | long (hbefore : files.contents r.target = .error .notFound)
      (hlong : ∃ name ∈ Path.names r.target, FileTree.nameBound < name.utf8ByteSize)
      (h : ∃ e, u.contents r.target = .error e)
  /-- The path led nowhere, and now gets past a directory that it leaves again. -/
  | up (hbefore : files.contents r.target = .error .notFound)
      (hup : ".." ∈ Path.names r.target)
      (h : ∀ bytes, u.contents r.target = .ok bytes →
        ∃ place m, files.file? place = some (bytes, m))

namespace Untouched

variable {place : Place} (h : r.Untouched files u)

include h

theorem file?_of_ne_none (hfile : files.file? place ≠ none) :
    u.file? place = files.file? place := by
  rcases h with hsame | ⟨written, g, -, habsent, hfiles⟩
  · exact hsame place
  · rw [hfiles, if_neg]
    rintro rfl
    exact hfile habsent

theorem file?_of_ne_temporary (hne : ∀ g, u.locate r.temporary = .ok g → place ≠ g.place) :
    u.file? place = files.file? place := by
  rcases h with hsame | ⟨written, g, hlocate, -, hfiles⟩
  · exact hsame place
  · rw [hfiles, if_neg (hne g hlocate)]

variable (htag : '/' ∉ r.tag.toList) (hfiles : files.WellFormed) (haround : r.Around files u)

include htag haround

/-- A target that can be read holds a file of the start. -/
theorem file?_of_contents {bytes : List UInt8} (hread : u.contents r.target = .ok bytes) :
    ∃ g m, u.locate r.target = .ok g ∧ g.slashed = false ∧ g.name ≠ none ∧
      files.file? g.place = some (bytes, m) := by
  obtain ⟨g, m, hlocate, hfile, hslashed⟩ := FileTree.contents_eq_ok_iff.mp hread
  have hno : u.node? g.place ≠ some .directory := by
    apply FileTree.not_directory_of_file?
    rw [hfile]
    nofun
  obtain ⟨-, hname⟩ := FileTree.stands_of_locate haround.wellFormed hlocate hno
  rw [h.file?_of_ne_temporary] at hfile
  · exact ⟨g, m, hlocate, hslashed, hname, hfile⟩
  · intro g' hlocate'
    exact target_ne_temporary htag haround.wellFormed hlocate hlocate' hno

include hfiles

/-- A target that never goes up holds no file now that it did not hold at the start. -/
theorem contents_of_contents (hdown : ".." ∉ Path.names r.target) {bytes : List UInt8}
    (hread : u.contents r.target = .ok bytes) : files.contents r.target = .ok bytes := by
  obtain ⟨g, m, hlocate, hslashed, hname, hfile⟩ := h.file?_of_contents htag haround hread
  have hnode : files.node? g.place ≠ none := by
    apply FileTree.node?_ne_none_of_file?
    rw [hfile]
    nofun
  have hbefore := FileTree.locate_of_locate hdown haround.grown.here hfiles hlocate hname hnode
  exact FileTree.contents_eq_ok_iff.mpr ⟨g, m, hbefore, hfile, hslashed⟩

/-- Where nothing was found at the start, nothing is found later. -/
theorem contents_notFound (hdown : ".." ∉ Path.names r.target)
    (hshort : ∀ name ∈ Path.names r.target, FileTree.checkName name = .ok ())
    (hbefore : files.contents r.target = .error .notFound) :
    u.contents r.target = .error .notFound := by
  by_cases husable : FileTree.Usable r.target
  · have hstart : u.start r.target = files.start r.target := by
      rw [FileTree.start, FileTree.start, haround.grown.here]
    rw [FileTree.contents_eq_notFound_iff husable hdown hshort hfiles, ← hstart] at hbefore
    rw [FileTree.contents_eq_notFound_iff husable hdown hshort haround.wellFormed]
    refine ⟨?_, ?_⟩
    · intro hdirectory
      rcases haround.made _ hdirectory with hwas | ⟨-, path, g, habove, hlocate, hname, hplace⟩
      · exact hbefore.1 hwas
      · exact not_made hdown habove hlocate hname hplace
    · intro l hway
      rw [h.file?_of_ne_temporary]
      · exact hbefore.2 l hway
      · intro g hlocate
        exact temporary_not_on_way hdown htag hlocate hway
  · cases hlocate : files.locate r.target with
    | ok g => exact absurd (FileTree.usable_of_locate hlocate) husable
    | error e =>
      rw [← hbefore, FileTree.contents_of_locate_error hlocate]
      rw [FileTree.locate_of_not_usable husable files u] at hlocate
      exact FileTree.contents_of_locate_error hlocate

theorem reads : r.Reads files u := by
  by_cases hbefore : files.contents r.target = .error .notFound
  · by_cases hup : ".." ∈ Path.names r.target
    · refine .up hbefore hup ?_
      intro bytes hread
      obtain ⟨g, m, -, -, -, hfile⟩ := h.file?_of_contents htag haround hread
      exact ⟨g.place, m, hfile⟩
    · by_cases hlong : ∃ name ∈ Path.names r.target, FileTree.nameBound < name.utf8ByteSize
      · refine .long hbefore hlong ?_
        cases hread : u.contents r.target with
        | error e => exact ⟨e, rfl⟩
        | ok bytes =>
          rw [h.contents_of_contents htag hfiles haround hup hread] at hbefore
          cases hbefore
      · have hshort : ∀ name ∈ Path.names r.target, FileTree.checkName name = .ok () := by
          intro name hname
          rw [FileTree.checkName, if_neg]
          intro hbound
          exact hlong ⟨name, hname, hbound⟩
        exact .same (hbefore ▸ h.contents_notFound htag hfiles haround hup hshort hbefore)
  · exact .same (FileTree.contents_of_ne haround.grown (fun _ => h.file?_of_ne_none) hbefore)

end Untouched

/-- Before the new bytes are in place, no file but the temporary one has changed. -/
theorem Holds.untouched {phase : Phase} (h : r.Holds files phase u) (hphase : phase ≠ .done) :
    r.Untouched files u := by
  cases phase with
  | preparing | creating | failed => exact .inl h
  | writing rest =>
    obtain ⟨written, -, hstaged⟩ := h
    exact .inr ⟨written, hstaged⟩
  | syncing | placing => exact .inr ⟨_, h⟩
  | cleaning => exact h
  | done => exact absurd rfl hphase

theorem Replaced.contents (h : r.Replaced files u) : u.contents r.target = .ok r.bytes := by
  obtain ⟨g, hlocate, -, hslashed, hfiles⟩ := h
  refine FileTree.contents_eq_ok_iff.mpr ⟨g, mode, hlocate, ?_, hslashed⟩
  rw [hfiles, if_pos rfl]

/-- The target has another name than the temporary file. -/
theorem Replaced.unused (h : r.Replaced files u) (hunused : r.Unused files) : r.Unused u := by
  obtain ⟨g, hlocate, hname, -, hfiles⟩ := h
  intro place hplace
  rw [hfiles] at hplace
  split at hplace
  · rename_i heq
    cases (FileTree.locate_eq_ok_iff.mp hlocate).2 with
    | root => exact absurd rfl hname
    | dotted => exact absurd rfl hname
    | named hkept hdot hdots =>
      have hfile := Path.fileName?_of_kept hkept hdot hdots
      rw [heq, FileTree.Target.place, Option.toList_some, List.getLast?_concat, ne_eq,
        Option.some.injEq]
      exact temporaryName_ne_of_fileName? hfile
  · exact hunused place hplace

/-- A run that succeeds leaves the new bytes at the target. -/
theorem contents_of_run (h : r.run files = (.ok (), u)) : u.contents r.target = .ok r.bytes := by
  unfold run at h
  split at h
  · cases h
  · rename_i prepared hprepared
    simp only [steps, performAll, perform] at h
    cases hcreate : prepared.create r.temporary mode with
    | error e => simp [hcreate, perform.attempt] at h
    | ok created =>
      simp only [hcreate, perform.attempt] at h
      cases happend : created.append r.temporary r.bytes with
      | error e => simp [happend] at h
      | ok written =>
        simp only [happend] at h
        cases hrename : written.rename r.temporary r.target with
        | error e => simp [hrename] at h
        | ok renamed =>
          simp only [hrename, Prod.mk.injEq, true_and] at h
          have hstaged : r.Staged prepared [] created :=
            staged_of_create (fun _ => rfl) hcreate
          rw [← h]
          exact (replaced_of_rename (staged_of_append hstaged happend) hrename).contents

/-- A read of the target at any point. -/
theorem Holds.reads {phase : Phase} (h : r.Holds files phase u) (htag : '/' ∉ r.tag.toList)
    (hfiles : files.WellFormed) (haround : r.Around files u) : r.Reads files u := by
  by_cases hphase : phase = .done
  · subst hphase
    exact .new (Replaced.contents h)
  · exact (h.untouched hphase).reads htag hfiles haround

end Turnstile.Replacement
