import Turnstile.Files.Replace
import Turnstile.Proofs.Files.Path
import Turnstile.Proofs.Lookup

/-! What the operations on files do to the tree, and where paths lead. A path that leads somewhere
leads there as long as no directory goes; in a tree where everything stands in a directory, a path
without `..` leads to a file as soon as the file is there. -/

namespace Turnstile.FileTree

variable {t u : FileTree} {place other p q : Place} {node : FileNode} {path : String}
  {g : Target} {bytes : List UInt8} {mode : Nat}

/-! ## Nodes -/

theorem node?_nil : t.node? [] = some .directory := rfl

theorem node?_set_self (h : place ≠ []) : (t.set place node).node? place = some node := by
  simp [node?, set, h]

theorem node?_set_of_ne (h : other ≠ place) : (t.set place node).node? other = t.node? other := by
  have hne : (other == place) = false := beq_false_of_ne h
  simp [node?, set, List.lookup_cons, hne, Lookup.lookup_filter_of_ne h]

theorem node?_erase_self (h : place ≠ []) : (t.erase place).node? place = none := by
  simp [node?, erase, h, Lookup.lookup_filter_self]

theorem node?_erase_of_ne (h : other ≠ place) : (t.erase place).node? other = t.node? other := by
  simp [node?, erase, Lookup.lookup_filter_of_ne h]

theorem erase_not_directory (hne : place ≠ []) (h : t.node? other ≠ some .directory) :
    (t.erase place).node? other ≠ some .directory := by
  intro hdirectory
  by_cases heq : other = place
  · rw [heq, node?_erase_self hne] at hdirectory
    cases hdirectory
  · rw [node?_erase_of_ne heq] at hdirectory
    exact h hdirectory

theorem ne_nil_of_not_directory (h : t.node? place ≠ some .directory) : place ≠ [] := by
  rintro rfl
  exact h node?_nil

theorem requireDirectory_eq_ok_iff :
    t.requireDirectory place = .ok () ↔ t.node? place = some .directory := by
  unfold requireDirectory
  split <;> simp [*]

/-- The file at a place. -/
def file? (t : FileTree) (place : Place) : Option (List UInt8 × Nat) :=
  match t.node? place with
  | some (.file bytes mode) => some (bytes, mode)
  | _ => none

theorem file?_eq_some_iff :
    t.file? place = some (bytes, mode) ↔ t.node? place = some (.file bytes mode) := by
  unfold file?
  split
  · rename_i heq
    rw [heq]
    simp
  · rename_i hno
    exact iff_of_false nofun (hno bytes mode)

theorem not_directory_of_file? (h : t.file? place ≠ none) : t.node? place ≠ some .directory := by
  intro hdir
  rw [file?, hdir] at h
  exact h rfl

theorem node?_ne_none_of_file? (h : t.file? place ≠ none) : t.node? place ≠ none := by
  intro hnone
  rw [file?, hnone] at h
  exact h rfl

theorem node?_eq_none (hfile : t.file? place = none) (hno : t.node? place ≠ some .directory) :
    t.node? place = none := by
  cases hnode : t.node? place with
  | none => rfl
  | some node =>
    cases node with
    | directory => exact absurd hnode hno
    | file bytes mode => rw [file?, hnode] at hfile; cases hfile

theorem file?_congr (h : u.node? place = t.node? place) : u.file? place = t.file? place := by
  rw [file?, file?, h]

theorem file?_set_file (h : place ≠ []) (other : Place) :
    (t.set place (.file bytes mode)).file? other =
      if other = place then some (bytes, mode) else t.file? other := by
  split
  · rename_i heq
    rw [heq, file?_eq_some_iff, node?_set_self h]
  · rename_i hne
    exact file?_congr (node?_set_of_ne hne)

theorem file?_set_directory (h : t.file? place = none) (hne : place ≠ []) (other : Place) :
    (t.set place .directory).file? other = t.file? other := by
  by_cases hother : other = place
  · rw [hother, h, file?, node?_set_self hne]
  · exact file?_congr (node?_set_of_ne hother)

theorem file?_erase (h : place ≠ []) (other : Place) :
    (t.erase place).file? other = if other = place then none else t.file? other := by
  split
  · rename_i heq
    rw [heq, file?, node?_erase_self h]
  · rename_i hne
    exact file?_congr (node?_erase_of_ne hne)

/-! ## Trees without fewer directories -/

/-- Every directory of the first tree is one of the second. -/
structure Grown (t u : FileTree) : Prop where
  here : u.here = t.here
  directories : ∀ place, t.node? place = some .directory → u.node? place = some .directory

namespace Grown

theorem refl (t : FileTree) : Grown t t := ⟨rfl, fun _ h => h⟩

theorem trans {v : FileTree} (h : Grown t u) (h' : Grown u v) : Grown t v :=
  ⟨h'.here.trans h.here, fun place hp => h'.directories place (h.directories place hp)⟩

theorem set (h : t.node? place ≠ some .directory) : Grown t (t.set place node) := by
  refine ⟨rfl, ?_⟩
  rintro other hother
  rw [node?_set_of_ne, hother]
  rintro rfl
  exact h hother

theorem erase (h : t.node? place ≠ some .directory) : Grown t (t.erase place) := by
  refine ⟨rfl, ?_⟩
  rintro other hother
  rw [node?_erase_of_ne, hother]
  rintro rfl
  exact h hother

end Grown

/-! ## Where paths lead -/

theorem walk_cons_eq_ok_iff {piece : String} {rest : List String} :
    t.walk p (piece :: rest) = .ok q ↔
      t.node? p = some .directory ∧
        (if piece.isEmpty || piece == "." then t.walk p rest = .ok q
        else if piece == ".." then t.walk p.dropLast rest = .ok q
        else checkName piece = .ok () ∧ t.walk (p ++ [piece]) rest = .ok q) := by
  rw [← requireDirectory_eq_ok_iff]
  simp only [walk, bind, Except.bind]
  cases t.requireDirectory p with
  | error e => simp
  | ok _ =>
    simp only [true_and]
    split
    · rfl
    · split
      · rfl
      · cases checkName piece <;> simp

theorem walk_mono (h : Grown t u) {pieces : List String} (hw : t.walk p pieces = .ok q) :
    u.walk p pieces = .ok q := by
  induction pieces generalizing p with
  | nil => exact hw
  | cons piece rest ih =>
    rw [walk_cons_eq_ok_iff] at hw ⊢
    refine ⟨h.directories p hw.1, ?_⟩
    have hrest := hw.2
    split at hrest
    · rename_i hstay
      rw [if_pos hstay]
      exact ih hrest
    · rename_i hgo
      rw [if_neg hgo]
      split at hrest
      · rename_i hup
        rw [if_pos hup]
        exact ih hrest
      · rename_i hdown
        rw [if_neg hdown]
        exact ⟨hrest.1, ih hrest.2⟩

/-- The path has more pieces than it names. -/
def slashed (path : String) : Bool :=
  decide ((Path.kept path).length < (Path.pieces path).length)

/-- The text of the path can be one. -/
def Usable (path : String) : Prop :=
  path.isEmpty = false ∧ path.toList.contains (Char.ofNat 0) = false

theorem locate_of_root (husable : Usable path) (hkept : Path.kept path = []) :
    t.locate path = .ok ⟨[], none, slashed path⟩ := by
  have hunfold : ((Path.pieces path).reverse.dropWhile (·.isEmpty)).reverse = Path.kept path := rfl
  simp only [locate, hunfold, husable.1, husable.2, hkept, bind, Except.bind]
  simp [slashed, hkept, pure, Except.pure]

theorem locate_of_dotted {last : String} (husable : Usable path)
    (hlast : (Path.kept path).getLast? = some last) (hdot : last = "." ∨ last = "..") :
    t.locate path = (t.walk (t.start path) (Path.kept path)).bind
      fun q => .ok ⟨q, none, slashed path⟩ := by
  have hunfold : ((Path.pieces path).reverse.dropWhile (·.isEmpty)).reverse = Path.kept path := rfl
  simp only [locate, hunfold, husable.1, husable.2, hlast, bind]
  simp [hdot, slashed, pure, Except.pure, Except.bind]

theorem locate_of_named {last : String} (husable : Usable path)
    (hlast : (Path.kept path).getLast? = some last) (hdot : last ≠ ".") (hdots : last ≠ "..") :
    t.locate path = (t.walk (t.start path) (Path.kept path).dropLast).bind
      fun q => (t.requireDirectory q).bind fun _ => (checkName last).bind
        fun _ => .ok ⟨q, some last, slashed path⟩ := by
  have hunfold : ((Path.pieces path).reverse.dropWhile (·.isEmpty)).reverse = Path.kept path := rfl
  simp only [locate, hunfold, husable.1, husable.2, hlast, bind]
  simp [hdot, hdots, slashed, pure, Except.pure, Except.bind]

theorem usable_of_locate (h : t.locate path = .ok g) : Usable path := by
  simp only [locate, bind, Except.bind] at h
  refine ⟨?_, ?_⟩
  · cases hempty : path.isEmpty with
    | false => rfl
    | true => simp [hempty] at h
  · cases hnul : path.toList.contains (Char.ofNat 0) with
    | false => rfl
    | true =>
      simp only [hnul, if_true] at h
      split at h <;> cases h

theorem locate_of_not_usable (h : ¬ Usable path) (t u : FileTree) :
    t.locate path = u.locate path := by
  unfold locate
  cases hempty : path.isEmpty with
  | true => rfl
  | false =>
    cases hnul : path.toList.contains (Char.ofNat 0) with
    | true => rfl
    | false => exact absurd ⟨hempty, hnul⟩ h

/-- Where a path leads: to the root, to a directory by a dot, or to a name in a directory. -/
inductive Leads (t : FileTree) (path : String) : Target → Prop
  | root (hkept : Path.kept path = []) : Leads t path ⟨[], none, slashed path⟩
  | dotted {q : Place} {last : String} (hlast : (Path.kept path).getLast? = some last)
      (hdot : last = "." ∨ last = "..") (hwalk : t.walk (t.start path) (Path.kept path) = .ok q) :
      Leads t path ⟨q, none, slashed path⟩
  | named {q : Place} {last : String} (hlast : (Path.kept path).getLast? = some last)
      (hdot : last ≠ ".") (hdots : last ≠ "..")
      (hwalk : t.walk (t.start path) (Path.kept path).dropLast = .ok q)
      (hdirectory : t.node? q = some .directory) (hname : checkName last = .ok ()) :
      Leads t path ⟨q, some last, slashed path⟩

theorem bind_eq_ok {ε α β : Type} {x : Except ε α} {f : α → Except ε β} {b : β}
    (h : x.bind f = .ok b) : ∃ a, x = .ok a ∧ f a = .ok b := by
  cases x with
  | error e => cases h
  | ok a => exact ⟨a, rfl, h⟩

theorem locate_eq_ok_iff : t.locate path = .ok g ↔ Usable path ∧ Leads t path g := by
  constructor
  · intro hlocate
    have husable := usable_of_locate hlocate
    refine ⟨husable, ?_⟩
    cases hlast : (Path.kept path).getLast? with
    | none =>
      rw [List.getLast?_eq_none_iff] at hlast
      rw [locate_of_root husable hlast, Except.ok.injEq] at hlocate
      exact hlocate ▸ .root hlast
    | some last =>
      by_cases hdot : last = "." ∨ last = ".."
      · rw [locate_of_dotted husable hlast hdot] at hlocate
        obtain ⟨q, hwalk, htarget⟩ := bind_eq_ok hlocate
        cases htarget
        exact .dotted hlast hdot hwalk
      · obtain ⟨hdot, hdots⟩ := not_or.mp hdot
        rw [locate_of_named husable hlast hdot hdots] at hlocate
        obtain ⟨q, hwalk, hrest⟩ := bind_eq_ok hlocate
        obtain ⟨_, hdirectory, hrest⟩ := bind_eq_ok hrest
        obtain ⟨_, hname, htarget⟩ := bind_eq_ok hrest
        cases htarget
        exact .named hlast hdot hdots hwalk (requireDirectory_eq_ok_iff.mp hdirectory) hname
  · rintro ⟨husable, hleads⟩
    cases hleads with
    | root hkept => exact locate_of_root husable hkept
    | dotted hlast hdot hwalk => rw [locate_of_dotted husable hlast hdot, hwalk]; rfl
    | named hlast hdot hdots hwalk hdirectory hname =>
      rw [locate_of_named husable hlast hdot hdots, hwalk]
      simp [Except.bind, requireDirectory, hdirectory, hname]

theorem locate_mono (h : Grown t u) (hl : t.locate path = .ok g) : u.locate path = .ok g := by
  rw [locate_eq_ok_iff] at hl ⊢
  refine ⟨hl.1, ?_⟩
  have hstart : u.start path = t.start path := by rw [start, start, h.here]
  cases hl.2 with
  | root hkept => exact .root hkept
  | dotted hlast hdot hwalk => exact .dotted hlast hdot (hstart ▸ walk_mono h hwalk)
  | named hlast hdot hdots hwalk hdirectory hname =>
    exact .named hlast hdot hdots (hstart ▸ walk_mono h hwalk) (h.directories _ hdirectory) hname

/-! ## Trees in which everything stands in a directory -/

/-- Whatever is there stands in a directory. -/
def WellFormed (t : FileTree) : Prop :=
  ∀ place, t.node? place ≠ none → t.node? place.dropLast = some .directory

theorem dropLast_ne_self (h : place ≠ []) : place.dropLast ≠ place := by
  intro heq
  have hlength := congrArg List.length heq
  have := List.length_pos_iff.mpr h
  rw [List.length_dropLast] at hlength
  omega

theorem node?_empty (h : place ≠ []) :
    empty.node? place = if place = ["work"] then some .directory else none := by
  have hblank : place.isEmpty = false := List.isEmpty_eq_false_iff.mpr h
  simp only [node?, empty, hblank, List.lookup_cons, List.lookup_nil]
  split <;> split <;> simp_all

theorem wellFormed_empty : empty.WellFormed := by
  intro place hnode
  by_cases hplace : place = []
  · rw [hplace]
    rfl
  · rw [node?_empty hplace] at hnode
    split at hnode
    · rename_i hwork
      rw [hwork]
      rfl
    · exact absurd rfl hnode

namespace WellFormed

theorem set (h : t.WellFormed) (hin : t.node? place.dropLast = some .directory)
    (hno : t.node? place ≠ some .directory) : (t.set place node).WellFormed := by
  have hne := ne_nil_of_not_directory hno
  intro other hother
  by_cases heq : other = place
  · rw [heq, node?_set_of_ne (dropLast_ne_self hne), hin]
  · rw [node?_set_of_ne heq] at hother
    rw [node?_set_of_ne, h other hother]
    intro habove
    exact hno (habove ▸ h other hother)

theorem erase (h : t.WellFormed) (hno : t.node? place ≠ some .directory) :
    (t.erase place).WellFormed := by
  have hne := ne_nil_of_not_directory hno
  intro other hother
  by_cases heq : other = place
  · rw [heq, node?_erase_self hne] at hother
    exact absurd rfl hother
  · rw [node?_erase_of_ne heq] at hother
    rw [node?_erase_of_ne, h other hother]
    intro habove
    exact hno (habove ▸ h other hother)

/-- What stands on the way to something is a directory. -/
theorem above (h : t.WellFormed) {rest : List String} (hrest : rest ≠ [])
    (hnode : t.node? (p ++ rest) ≠ none) : t.node? p = some .directory := by
  induction rest using List.reverseRecOn with
  | nil => exact absurd rfl hrest
  | append_singleton before name ih =>
    have hparent := h _ hnode
    rw [← List.append_assoc, List.dropLast_concat] at hparent
    by_cases hbefore : before = []
    · rwa [hbefore, List.append_nil] at hparent
    · exact ih hbefore (by rw [hparent]; nofun)

end WellFormed

theorem walk_append {xs ys : List String} :
    t.walk p (xs ++ ys) = (t.walk p xs).bind (t.walk · ys) := by
  induction xs generalizing p with
  | nil => rfl
  | cons piece rest ih =>
    simp only [List.cons_append, walk, bind, Except.bind]
    split
    · rfl
    · split
      · exact ih
      · split
        · exact ih
        · cases checkName piece with
          | error _ => rfl
          | ok _ => exact ih

/-- A path that ends in a dot leads to a directory. -/
theorem Leads.directory (h : t.WellFormed) (hl : Leads t path g) (hname : g.name = none) :
    t.node? g.place = some .directory := by
  cases hl with
  | root hkept => exact node?_nil
  | named => exact absurd hname nofun
  | @dotted q last hlast hdot hwalk =>
    obtain ⟨before, hbefore⟩ := List.getLast?_eq_some_iff.mp hlast
    rw [hbefore, walk_append] at hwalk
    cases hfront : t.walk (t.start path) before with
    | error e => rw [hfront] at hwalk; cases hwalk
    | ok p =>
      rw [hfront] at hwalk
      obtain ⟨hp, hstep⟩ := walk_cons_eq_ok_iff.mp hwalk
      rw [Target.place, Option.toList_none, List.append_nil]
      rcases hdot with rfl | rfl
      · cases hstep
        exact hp
      · cases hstep
        exact h p (by rw [hp]; nofun)

/-- What is no directory stands under its name in one. -/
theorem stands_of_locate (h : t.WellFormed) (hl : t.locate path = .ok g)
    (hno : t.node? g.place ≠ some .directory) :
    t.node? g.place.dropLast = some .directory ∧ g.name ≠ none := by
  have hleads := (locate_eq_ok_iff.mp hl).2
  have hdotted := hleads.directory h
  cases hleads with
  | root => exact absurd rfl hno
  | dotted => exact absurd (hdotted rfl) hno
  | named _ _ _ _ hdirectory =>
    rw [Target.place, Option.toList_some, List.dropLast_concat]
    exact ⟨hdirectory, nofun⟩

/-! ## Operations -/

theorem contents_eq_ok_iff : t.contents path = .ok bytes ↔
    ∃ g mode, t.locate path = .ok g ∧ t.file? g.place = some (bytes, mode) ∧
      g.slashed = false := by
  simp only [contents, bind, Except.bind]
  cases t.locate path with
  | error e => simp
  | ok g =>
    simp only [file?_eq_some_iff]
    cases hnode : t.node? g.place with
    | none => simp [hnode]
    | some node =>
      cases node with
      | directory => simp [hnode]
      | file => cases hslashed : g.slashed <;> simp [hnode, hslashed, pure, Except.pure]

theorem makeDirectory_eq_ok (h : t.makeDirectory path = .ok u) :
    ∃ g, t.locate path = .ok g ∧ t.node? g.place = none ∧ u = t.set g.place .directory := by
  simp only [makeDirectory, bind, Except.bind, pure, Except.pure] at h
  split at h
  · cases h
  · rename_i g hg
    split at h
    · cases h
    · rename_i hnode
      cases h
      exact ⟨g, hg, hnode, rfl⟩

theorem create_eq_ok (h : t.create path mode = .ok u) :
    ∃ g, t.locate path = .ok g ∧ t.node? g.place = none ∧
      u = t.set g.place (.file [] mode) := by
  simp only [create, bind, Except.bind, pure, Except.pure] at h
  split at h
  · cases h
  · rename_i g hg
    split at h
    · cases h
    · split at h
      · cases h
      · rename_i hnode
        cases h
        exact ⟨g, hg, hnode, rfl⟩

theorem append_eq_ok (h : t.append path bytes = .ok u) :
    ∃ g old mode, t.locate path = .ok g ∧ t.file? g.place = some (old, mode) ∧
      u = t.set g.place (.file (old ++ bytes) mode) := by
  simp only [append, bind, Except.bind, pure, Except.pure] at h
  split at h
  · cases h
  · rename_i g hg
    split at h
    · rename_i old mode hnode
      cases h
      exact ⟨g, old, mode, hg, file?_eq_some_iff.mpr hnode, rfl⟩
    · cases h
    · cases h

theorem rename_eq_ok {newPath : String} (h : t.rename path newPath = .ok u) :
    ∃ g g' bytes mode, t.locate path = .ok g ∧ t.locate newPath = .ok g' ∧ g'.name ≠ none ∧
      g'.slashed = false ∧ t.file? g.place = some (bytes, mode) ∧
      t.node? g'.place ≠ some .directory ∧
      u = (t.erase g.place).set g'.place (.file bytes mode) := by
  simp only [rename, bind, Except.bind, pure, Except.pure] at h
  split at h
  · cases h
  · rename_i g hg
    split at h
    · cases h
    · rename_i g' hg'
      split at h
      · cases h
      · rename_i hname
        split at h
        · rename_i bytes mode hnode
          split at h
          · cases h
          · rename_i hslashed
            split at h
            · cases h
            · rename_i hdirectory
              cases h
              refine ⟨g, g', bytes, mode, hg, hg', ?_, by simpa using hslashed,
                file?_eq_some_iff.mpr hnode, by simpa using hdirectory, rfl⟩
              simpa using hname
        · cases h
        · cases h

theorem remove_of_locate (hl : t.locate path = .ok g) (hfile : t.file? g.place ≠ none) :
    t.remove path = .ok (t.erase g.place) := by
  obtain ⟨⟨bytes, mode⟩, hbytes⟩ := Option.ne_none_iff_exists'.mp hfile
  rw [file?_eq_some_iff] at hbytes
  simp only [remove, hl, bind, Except.bind, hbytes]
  rfl

theorem remove_eq_ok (h : t.remove path = .ok u) :
    ∃ g, t.locate path = .ok g ∧ t.file? g.place ≠ none ∧ u = t.erase g.place := by
  simp only [remove, bind, Except.bind, pure, Except.pure] at h
  split at h
  · cases h
  · rename_i g hg
    split at h
    · rename_i bytes mode hnode
      cases h
      exact ⟨g, hg, by rw [file?_eq_some_iff.mpr hnode]; nofun, rfl⟩
    · cases h
    · cases h

/-! ## Reads that stay the same -/

section Reads

variable (h : Grown t u) (hfiles : ∀ place, t.file? place ≠ none → u.file? place = t.file? place)

include h hfiles

theorem requireDirectory_of_ne (hne : t.requireDirectory p ≠ .error .notFound) :
    u.requireDirectory p = t.requireDirectory p := by
  unfold requireDirectory at hne ⊢
  cases hnode : t.node? p with
  | none => simp [hnode] at hne
  | some node =>
    cases node with
    | directory => rw [h.directories p hnode]
    | file bytes mode =>
      have hfile := file?_eq_some_iff.mpr hnode
      rw [← hfiles p (by rw [hfile]; nofun), file?_eq_some_iff] at hfile
      rw [hfile]

theorem walk_of_ne {pieces : List String} (hne : t.walk p pieces ≠ .error .notFound) :
    u.walk p pieces = t.walk p pieces := by
  induction pieces generalizing p with
  | nil => rfl
  | cons piece rest ih =>
    simp only [walk, bind] at hne ⊢
    have hrequire : t.requireDirectory p ≠ .error .notFound := by
      intro hrequire
      rw [hrequire] at hne
      exact hne rfl
    rw [requireDirectory_of_ne h hfiles hrequire]
    cases hp : t.requireDirectory p with
    | error e => rfl
    | ok _ =>
      rw [hp] at hne
      simp only [Except.bind] at hne ⊢
      split
      · rename_i hstay
        rw [if_pos hstay] at hne
        exact ih hne
      · rename_i hgo
        rw [if_neg hgo] at hne
        split
        · rename_i hup
          rw [if_pos hup] at hne
          exact ih hne
        · rename_i hdown
          rw [if_neg hdown] at hne
          cases hname : checkName piece with
          | error e => rfl
          | ok _ =>
            rw [hname] at hne
            exact ih hne

theorem locate_of_ne (hne : t.locate path ≠ .error .notFound) : u.locate path = t.locate path := by
  have hstart : u.start path = t.start path := by rw [start, start, h.here]
  by_cases husable : Usable path
  · cases hlast : (Path.kept path).getLast? with
    | none =>
      have hnone := List.getLast?_eq_none_iff.mp hlast
      rw [locate_of_root husable hnone, locate_of_root husable hnone]
    | some last =>
      by_cases hdot : last = "." ∨ last = ".."
      · rw [locate_of_dotted husable hlast hdot] at hne
        rw [locate_of_dotted husable hlast hdot, locate_of_dotted husable hlast hdot, hstart]
        rw [walk_of_ne h hfiles]
        intro hwalk
        rw [hwalk] at hne
        exact hne rfl
      · obtain ⟨hdot, hdots⟩ := not_or.mp hdot
        rw [locate_of_named husable hlast hdot hdots] at hne
        rw [locate_of_named husable hlast hdot hdots, locate_of_named husable hlast hdot hdots,
          hstart]
        have hwalk : t.walk (t.start path) (Path.kept path).dropLast ≠ .error .notFound := by
          intro hwalk
          rw [hwalk] at hne
          exact hne rfl
        rw [walk_of_ne h hfiles hwalk]
        cases hq : t.walk (t.start path) (Path.kept path).dropLast with
        | error e => rfl
        | ok q =>
          rw [hq] at hne
          simp only [Except.bind] at hne ⊢
          rw [requireDirectory_of_ne h hfiles]
          intro hrequire
          rw [hrequire] at hne
          exact hne rfl
  · exact locate_of_not_usable husable u t

/-- A read says the same later, unless it found nothing. -/
theorem contents_of_ne (hne : t.contents path ≠ .error .notFound) :
    u.contents path = t.contents path := by
  have hlocate : t.locate path ≠ .error .notFound := by
    intro hlocate
    rw [contents, hlocate] at hne
    exact hne rfl
  rw [contents, contents, locate_of_ne h hfiles hlocate]
  cases hl : t.locate path with
  | error e => rfl
  | ok g =>
    simp only [contents, hl, bind, Except.bind] at hne ⊢
    cases hnode : t.node? g.place with
    | none => simp [hnode] at hne
    | some node =>
      cases node with
      | directory => rw [h.directories _ hnode]
      | file bytes mode =>
        have hfile := file?_eq_some_iff.mpr hnode
        rw [← hfiles g.place (by rw [hfile]; nofun), file?_eq_some_iff] at hfile
        rw [hfile]

end Reads

end Turnstile.FileTree
