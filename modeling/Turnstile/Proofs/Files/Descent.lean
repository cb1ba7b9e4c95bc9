import Turnstile.Proofs.Files.Tree

/-! Paths that never go up. Such a path leads to its names, one below the other, so what a read of
it says depends only on what stands on the way: whether the read finds nothing is told by the files
and by the directory at the end. -/

namespace Turnstile.FileTree

variable {t u : FileTree} {p q : Place} {path : String} {g : Target} {pieces : List String}

theorem isName_eq_false_iff {piece : String} :
    Path.isName piece = false ↔ (piece.isEmpty || piece == ".") = true := by
  rw [Path.isName, Bool.not_eq_false']

/-- A walk by names only, one piece at a time. -/
theorem walk_cons_of_name {piece : String} {rest : List String} (hp : t.node? p = some .directory)
    (hname : Path.isName piece = true) (hup : piece ≠ "..") :
    t.walk p (piece :: rest) = (checkName piece).bind fun _ => t.walk (p ++ [piece]) rest := by
  have hstay : (piece.isEmpty || piece == ".") = false := by simpa [Path.isName] using hname
  simp only [walk, requireDirectory_eq_ok_iff.mpr hp, hstay, bind]
  simp [hup, Except.bind]

theorem walk_cons_of_not_name {piece : String} {rest : List String}
    (hp : t.node? p = some .directory) (hname : Path.isName piece = false) :
    t.walk p (piece :: rest) = t.walk p rest := by
  simp only [walk, requireDirectory_eq_ok_iff.mpr hp, isName_eq_false_iff.mp hname, bind]
  rfl

theorem walk_place (hdown : ".." ∉ pieces) (hw : t.walk p pieces = .ok q) :
    q = p ++ pieces.filter Path.isName := by
  induction pieces generalizing p with
  | nil =>
    cases hw
    rw [List.filter_nil, List.append_nil]
  | cons piece rest ih =>
    obtain ⟨hup, hdown⟩ := not_or.mp (mt List.mem_cons.mpr hdown)
    have hp := (walk_cons_eq_ok_iff.mp hw).1
    cases hname : Path.isName piece with
    | false =>
      rw [walk_cons_of_not_name hp hname] at hw
      rw [List.filter_cons_of_neg (by simp [hname])]
      exact ih hdown hw
    | true =>
      rw [walk_cons_of_name hp hname (Ne.symm hup)] at hw
      obtain ⟨_, _, hw⟩ := bind_eq_ok hw
      rw [List.filter_cons_of_pos hname, ih hdown hw, List.append_assoc]
      rfl

/-! ## Walks that meet files -/

/-- A file on the way stops a walk, unless it stands at the end. -/
theorem walk_of_file (hdown : ".." ∉ pieces)
    (hshort : ∀ name ∈ pieces.filter Path.isName, checkName name = .ok ()) (ht : t.WellFormed)
    {l : List String} (hl : l <+: pieces.filter Path.isName) (hfile : t.file? (p ++ l) ≠ none) :
    t.walk p pieces = .error .notDirectory ∨ t.walk p pieces = .ok (p ++ l) := by
  induction pieces generalizing p l with
  | nil =>
    rw [List.filter_nil, List.prefix_nil] at hl
    exact .inr (by rw [hl, List.append_nil]; rfl)
  | cons piece rest ih =>
    obtain ⟨hup, hdown⟩ := not_or.mp (mt List.mem_cons.mpr hdown)
    by_cases hnil : l = []
    · left
      rw [hnil, List.append_nil] at hfile
      obtain ⟨⟨bytes, mode⟩, hbytes⟩ := Option.ne_none_iff_exists'.mp hfile
      rw [file?_eq_some_iff] at hbytes
      simp [walk, requireDirectory, hbytes, bind, Except.bind]
    · have hp : t.node? p = some .directory := ht.above hnil (node?_ne_none_of_file? hfile)
      cases hname : Path.isName piece with
      | false =>
        rw [walk_cons_of_not_name hp hname]
        rw [List.filter_cons_of_neg (by simp [hname])] at hl hshort
        exact ih hdown hshort hl hfile
      | true =>
        rw [List.filter_cons_of_pos hname] at hl hshort
        rw [List.forall_mem_cons] at hshort
        rw [walk_cons_of_name hp hname (Ne.symm hup), hshort.1]
        obtain ⟨first, more, rfl⟩ := List.exists_cons_of_ne_nil hnil
        obtain ⟨hfirst, hmore⟩ := List.cons_prefix_cons.mp hl
        rw [hfirst, List.append_cons p piece more] at hfile ⊢
        exact ih hdown hshort.2 hmore hfile

/-- Without a file on the way a walk arrives, unless there is nothing at the end. -/
theorem walk_of_no_file (hdown : ".." ∉ pieces)
    (hshort : ∀ name ∈ pieces.filter Path.isName, checkName name = .ok ()) (ht : t.WellFormed)
    (hno : ∀ l, l <+: pieces.filter Path.isName → t.file? (p ++ l) = none) :
    t.walk p pieces = .error .notFound ∧ t.node? (p ++ pieces.filter Path.isName) = none ∨
      t.walk p pieces = .ok (p ++ pieces.filter Path.isName) := by
  induction pieces generalizing p with
  | nil => exact .inr (by rw [List.filter_nil, List.append_nil]; rfl)
  | cons piece rest ih =>
    obtain ⟨hup, hdown⟩ := not_or.mp (mt List.mem_cons.mpr hdown)
    cases hnode : t.node? p with
    | none =>
      refine .inl ⟨by simp [walk, requireDirectory, hnode, bind, Except.bind], ?_⟩
      by_cases hnames : (piece :: rest).filter Path.isName = []
      · rw [hnames, List.append_nil, hnode]
      · by_contra hend
        rw [ht.above hnames hend] at hnode
        cases hnode
    | some node =>
      cases node with
      | file bytes mode =>
        have hfile := hno [] (List.nil_prefix)
        rw [List.append_nil, file?, hnode] at hfile
        cases hfile
      | directory =>
        cases hname : Path.isName piece with
        | false =>
          rw [walk_cons_of_not_name hnode hname]
          rw [List.filter_cons_of_neg (by simp [hname])] at hshort hno ⊢
          exact ih hdown hshort hno
        | true =>
          rw [List.filter_cons_of_pos hname] at hshort hno ⊢
          rw [List.forall_mem_cons] at hshort
          rw [walk_cons_of_name hnode hname (Ne.symm hup), hshort.1]
          have hrest := ih (p := p ++ [piece]) hdown hshort.2 (by
            intro l hl
            rw [← List.append_cons p piece l]
            exact hno _ (List.cons_prefix_cons.mpr ⟨rfl, hl⟩))
          rw [List.append_cons p piece (rest.filter Path.isName)]
          exact hrest

theorem walk_of_directory (hdown : ".." ∉ pieces)
    (hshort : ∀ name ∈ pieces.filter Path.isName, checkName name = .ok ()) (ht : t.WellFormed)
    (hend : t.node? (p ++ pieces.filter Path.isName) = some .directory) :
    t.walk p pieces = .ok (p ++ pieces.filter Path.isName) := by
  have hno : ∀ l, l <+: pieces.filter Path.isName → t.file? (p ++ l) = none := by
    rintro l ⟨rest, hrest⟩
    rw [← hrest, ← List.append_assoc] at hend
    have hl : t.node? (p ++ l) = some .directory := by
      by_cases hnil : rest = []
      · rwa [hnil, List.append_nil] at hend
      · exact ht.above hnil (by rw [hend]; nofun)
    rw [file?, hl]
  rcases walk_of_no_file hdown hshort ht hno with ⟨_, hnone⟩ | hw
  · rw [hend] at hnone
    cases hnone
  · exact hw

theorem checkName_of_walk (hdown : ".." ∉ pieces) (hw : t.walk p pieces = .ok q) :
    ∀ name ∈ pieces.filter Path.isName, checkName name = .ok () := by
  induction pieces generalizing p with
  | nil => nofun
  | cons piece rest ih =>
    obtain ⟨hup, hrest⟩ := not_or.mp (mt List.mem_cons.mpr hdown)
    have hp := (walk_cons_eq_ok_iff.mp hw).1
    cases hname : Path.isName piece with
    | false =>
      rw [walk_cons_of_not_name hp hname] at hw
      rw [List.filter_cons_of_neg (by simp [hname])]
      exact ih hrest hw
    | true =>
      rw [walk_cons_of_name hp hname (Ne.symm hup)] at hw
      obtain ⟨_, hcheck, hw⟩ := bind_eq_ok hw
      rw [List.filter_cons_of_pos hname, List.forall_mem_cons]
      exact ⟨hcheck, ih hrest hw⟩

/-- What one tree can walk to, another can where it has the directory at the end. -/
theorem walk_of_walk (hdown : ".." ∉ pieces) (ht : t.WellFormed)
    (hq : t.node? q = some .directory) (hw : u.walk p pieces = .ok q) :
    t.walk p pieces = .ok q := by
  have hplace := walk_place hdown hw
  rw [hplace] at hq ⊢
  exact walk_of_directory hdown (checkName_of_walk hdown hw) ht hq

/-! ## Paths that only go down -/

theorem contents_of_locate_error {e : FileError} (h : t.locate path = .error e) :
    t.contents path = .error e := by
  rw [contents, h]
  rfl

theorem contents_of_locate (h : t.locate path = .ok g) :
    t.contents path = .error .notFound ↔ t.node? g.place = none := by
  simp only [contents, h, bind, Except.bind]
  cases hnode : t.node? g.place with
  | none => simp
  | some node =>
    cases node with
    | directory => simp
    | file => cases g.slashed <;> simp [pure, Except.pure]

theorem not_mem_of_not_mem_names (h : ".." ∉ Path.names path) : ".." ∉ Path.kept path := by
  intro hmem
  have hpieces := (List.rdropWhile_prefix (·.isEmpty) (Path.pieces path)).subset hmem
  exact h (List.mem_filter.mpr ⟨hpieces, by decide⟩)

theorem names_of_last {last : String} (hlast : (Path.kept path).getLast? = some last)
    (hdot : last ≠ ".") :
    Path.names path = (Path.kept path).dropLast.filter Path.isName ++ [last] := by
  obtain ⟨before, hbefore⟩ := List.getLast?_eq_some_iff.mp hlast
  rw [← Path.filter_kept, hbefore, List.dropLast_concat, List.filter_append, List.filter_singleton,
    Path.isName_last hlast hdot]
  rfl

/-- How a path that never goes up can end. -/
inductive Descends (path : String) : Prop
  | root (hkept : Path.kept path = [])
  | dotted (hlast : (Path.kept path).getLast? = some ".")
  | named {last : String} (hlast : (Path.kept path).getLast? = some last) (hdot : last ≠ ".")
      (hdots : last ≠ "..") (hfront : ".." ∉ (Path.kept path).dropLast)
      (hnames : Path.names path = (Path.kept path).dropLast.filter Path.isName ++ [last])

theorem descends (hdown : ".." ∉ Path.names path) : Descends path := by
  have hkept := not_mem_of_not_mem_names hdown
  cases hlast : (Path.kept path).getLast? with
  | none => exact .root (List.getLast?_eq_none_iff.mp hlast)
  | some last =>
    by_cases hdot : last = "."
    · rw [hdot] at hlast
      exact .dotted hlast
    · have hdots : last ≠ ".." := by
        rintro rfl
        exact hkept (List.mem_of_getLast? hlast)
      have hfront : ".." ∉ (Path.kept path).dropLast := fun h => hkept (List.dropLast_subset _ h)
      exact .named hlast hdot hdots hfront (names_of_last hlast hdot)

theorem locate_place (hdown : ".." ∉ Path.names path) (hl : t.locate path = .ok g) :
    g.place = t.start path ++ Path.names path := by
  have hkept := not_mem_of_not_mem_names hdown
  cases (locate_eq_ok_iff.mp hl).2 with
  | root hnone =>
    have hrooted := Path.isRooted_of_kept hnone (usable_of_locate hl).1
    rw [← Path.filter_kept, hnone, List.filter_nil, List.append_nil, start, hrooted]
    rfl
  | dotted hlast hdot hwalk =>
    rw [← Path.filter_kept, Target.place, Option.toList_none, List.append_nil]
    exact walk_place hkept hwalk
  | named hlast hdot hdots hwalk =>
    have hfront := fun h => hkept (List.dropLast_subset _ h)
    rw [names_of_last hlast hdot, Target.place, walk_place hfront hwalk, List.append_assoc]
    rfl

theorem names_ne_nil_of_named (hl : t.locate path = .ok g) (hname : g.name ≠ none) :
    Path.names path ≠ [] := by
  cases (locate_eq_ok_iff.mp hl).2 with
  | root => exact absurd rfl hname
  | dotted => exact absurd rfl hname
  | named hlast hdot =>
    have hmem := List.mem_filter.mpr ⟨List.mem_of_getLast? hlast, Path.isName_last hlast hdot⟩
    rw [Path.filter_kept] at hmem
    exact List.ne_nil_of_mem hmem

/-- A path that leads to a file now led there before, where the file stood there before. -/
theorem locate_of_locate (hdown : ".." ∉ Path.names path) (hhere : u.here = t.here)
    (ht : t.WellFormed) (hl : u.locate path = .ok g) (hname : g.name ≠ none)
    (hnode : t.node? g.place ≠ none) : t.locate path = .ok g := by
  obtain ⟨husable, hleads⟩ := locate_eq_ok_iff.mp hl
  have hstart : u.start path = t.start path := by rw [start, start, hhere]
  refine locate_eq_ok_iff.mpr ⟨husable, ?_⟩
  cases hleads with
  | root => exact absurd rfl hname
  | dotted => exact absurd rfl hname
  | @named q last hlast hdot hdots hwalk hdirectory hcheck =>
    have hq : t.node? q = some .directory := ht.above (List.cons_ne_nil last []) hnode
    have hkept := not_mem_of_not_mem_names hdown
    have hfront := fun h => hkept (List.dropLast_subset _ h)
    rw [hstart] at hwalk
    exact .named hlast hdot hdots (walk_of_walk hfront ht hq hwalk) hq hcheck

variable (husable : Usable path) (hdown : ".." ∉ Path.names path)
  (hshort : ∀ name ∈ Path.names path, checkName name = .ok ()) (ht : t.WellFormed)

include husable hdown hshort ht

/-- Without a file on the way a path leads to its names, unless there is nothing. -/
theorem locate_of_no_file (hno : ∀ l, l <+: Path.names path → t.file? (t.start path ++ l) = none) :
    t.locate path = .error .notFound ∧ t.node? (t.start path ++ Path.names path) = none ∨
      ∃ g, t.locate path = .ok g ∧ g.place = t.start path ++ Path.names path := by
  cases descends hdown with
  | root hkept =>
    have hlocate := locate_of_root (t := t) husable hkept
    exact .inr ⟨_, hlocate, locate_place hdown hlocate⟩
  | dotted hlast =>
    rw [locate_of_dotted husable hlast (.inl rfl)]
    rw [← Path.filter_kept] at hshort hno ⊢
    rcases walk_of_no_file (not_mem_of_not_mem_names hdown) hshort ht hno with ⟨hw, hend⟩ | hw
    · exact .inl ⟨by rw [hw]; rfl, hend⟩
    · exact .inr ⟨_, by rw [hw]; rfl, List.append_nil _⟩
  | @named last hlast hdot hdots hfront hnames =>
    rw [locate_of_named husable hlast hdot hdots]
    rw [hnames] at hshort hno ⊢
    rw [List.forall_mem_append, List.forall_mem_singleton] at hshort
    generalize (Path.kept path).dropLast = front at *
    have hnofront : ∀ l, l <+: front.filter Path.isName → t.file? (t.start path ++ l) = none :=
      fun l hl => hno l (hl.trans (List.prefix_append _ _))
    have habsent (h : t.node? (t.start path ++ front.filter Path.isName) = none) :
        t.node? (t.start path ++ (front.filter Path.isName ++ [last])) = none := by
      by_contra hend
      rw [← List.append_assoc] at hend
      rw [ht.above (List.cons_ne_nil last []) hend] at h
      cases h
    rcases walk_of_no_file hfront hshort.1 ht hnofront with ⟨hw, hend⟩ | hw
    · exact .inl ⟨by rw [hw]; rfl, habsent hend⟩
    · by_cases hdirectory : t.node? (t.start path ++ front.filter Path.isName) = some .directory
      · refine .inr ⟨⟨t.start path ++ front.filter Path.isName, some last, slashed path⟩, ?_,
          List.append_assoc _ _ _⟩
        simp [hw, requireDirectory, hdirectory, hshort.2, Except.bind]
      · have hnone := node?_eq_none (hnofront _ List.prefix_rfl) hdirectory
        exact .inl ⟨by simp [hw, requireDirectory, hnone, Except.bind], habsent hnone⟩

/-- A file on the way of a path stops it, unless the path leads to the file. -/
theorem locate_of_file {l : List String} (hl : l <+: Path.names path)
    (hfile : t.file? (t.start path ++ l) ≠ none) :
    t.locate path = .error .notDirectory ∨
      ∃ g, t.locate path = .ok g ∧ g.place = t.start path ++ l := by
  cases descends hdown with
  | root hkept =>
    rw [← Path.filter_kept, hkept, List.filter_nil, List.prefix_nil] at hl
    rw [start, Path.isRooted_of_kept hkept husable.1, hl] at hfile
    exact absurd rfl hfile
  | dotted hlast =>
    rw [locate_of_dotted husable hlast (.inl rfl)]
    rw [← Path.filter_kept] at hl hshort
    rcases walk_of_file (not_mem_of_not_mem_names hdown) hshort ht hl hfile with hw | hw
    · exact .inl (by rw [hw]; rfl)
    · exact .inr ⟨_, by rw [hw]; rfl, List.append_nil _⟩
  | @named last hlast hdot hdots hfront hnames =>
    rw [locate_of_named husable hlast hdot hdots]
    rw [hnames] at hshort hl
    rw [List.forall_mem_append, List.forall_mem_singleton] at hshort
    generalize (Path.kept path).dropLast = front at *
    rcases List.prefix_concat_iff.mp hl with rfl | hl
    · -- the file is what the path names, so the directory it stands in is there
      have hq : t.node? (t.start path ++ front.filter Path.isName) = some .directory := by
        rw [← List.append_assoc] at hfile
        exact ht.above (List.cons_ne_nil last []) (node?_ne_none_of_file? hfile)
      have hw : t.walk (t.start path) front = .ok (t.start path ++ front.filter Path.isName) :=
        walk_of_directory hfront hshort.1 ht hq
      refine .inr ⟨⟨t.start path ++ front.filter Path.isName, some last, slashed path⟩, ?_,
        List.append_assoc _ _ _⟩
      simp [hw, requireDirectory, hq, hshort.2, Except.bind]
    · left
      obtain ⟨⟨bytes, mode⟩, hbytes⟩ := Option.ne_none_iff_exists'.mp hfile
      rw [file?_eq_some_iff] at hbytes
      rcases walk_of_file hfront hshort.1 ht hl hfile with hw | hw
      · rw [hw]
        rfl
      · simp [hw, requireDirectory, hbytes, Except.bind]

/-- A read of a path that only goes down finds nothing just when there is no directory at its end
and no file on the way. -/
theorem contents_eq_notFound_iff :
    t.contents path = .error .notFound ↔
      t.node? (t.start path ++ Path.names path) ≠ some .directory ∧
        ∀ l, l <+: Path.names path → t.file? (t.start path ++ l) = none := by
  by_cases hfile : ∃ l, l <+: Path.names path ∧ t.file? (t.start path ++ l) ≠ none
  · obtain ⟨l, hl, hfile⟩ := hfile
    refine iff_of_false ?_ (fun h => hfile (h.2 l hl))
    rcases locate_of_file husable hdown hshort ht hl hfile with hlocate | ⟨g, hlocate, hplace⟩
    · rw [contents_of_locate_error hlocate]
      nofun
    · rw [contents_of_locate hlocate, hplace]
      exact node?_ne_none_of_file? hfile
  · have hno : ∀ l, l <+: Path.names path → t.file? (t.start path ++ l) = none := by
      intro l hl
      by_contra h
      exact hfile ⟨l, hl, h⟩
    rcases locate_of_no_file husable hdown hshort ht hno with ⟨hlocate, hend⟩ | ⟨g, hlocate, hplace⟩
    · exact iff_of_true (contents_of_locate_error hlocate) ⟨by rw [hend]; nofun, hno⟩
    · rw [contents_of_locate hlocate, hplace]
      constructor
      · intro hend
        exact ⟨by rw [hend]; nofun, hno⟩
      · intro hend
        exact node?_eq_none (hno _ List.prefix_rfl) hend.1

end Turnstile.FileTree
