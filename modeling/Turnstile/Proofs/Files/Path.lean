import Turnstile.Files.Path
import Turnstile.Proofs.Text.Blank
import Turnstile.Proofs.Text.Split
import Mathlib.Data.List.DropRight

/-! The last name of a path. A name without slashes that is joined to a directory is the last piece
of the path, and the last piece of a path that is no dot is its file name. -/

namespace Turnstile

namespace Path

variable {path directory name last : String}

/-- The pieces up to the last one that is not empty. -/
def kept (path : String) : List String := (pieces path).rdropWhile (·.isEmpty)

theorem last_ne_empty (h : (kept path).getLast? = some last) : last.isEmpty = false := by
  rw [kept, List.rdropWhile, List.getLast?_reverse] at h
  have hhead := List.head?_dropWhile_not String.isEmpty (pieces path).reverse
  rw [h] at hhead
  exact hhead

/-- Empty pieces at the end do not count, and the last other piece does unless it is a dot. -/
theorem fileName?_of_kept (h : (kept path).getLast? = some last) (hdot : last ≠ ".")
    (hdots : last ≠ "..") : fileName? path = some last := by
  obtain ⟨before, hbefore⟩ := List.getLast?_eq_some_iff.mp h
  have hlast : last.isEmpty = false := last_ne_empty h
  have hpieces := (pieces path).rdropWhile_append_rtakeWhile (p := (·.isEmpty))
  have htrimmed : trimmedPieces path = before ++ [last] := by
    change ((pieces path).zipIdx.rdropWhile fun p => !counts p.2 p.1).map (·.1) = _
    rw [← hpieces, ← kept, hbefore, List.zipIdx_append, Text.rdropWhile_append_of_pos,
      List.zipIdx_append, List.zipIdx_singleton, List.rdropWhile_concat_neg]
    · simp
    · simp [counts, hlast, hdot]
    · rintro ⟨piece, i⟩ hmem
      have hblank := List.mem_rtakeWhile_imp (List.fst_mem_of_mem_zipIdx hmem)
      simp only at hblank
      simp [counts, hblank]
  simp [fileName?, htrimmed, hdot, hdots]

theorem not_mem_of_mem_pieces {piece : String} (h : piece ∈ pieces path) :
    '/' ∉ piece.toList := by
  obtain ⟨cs, hcs, rfl⟩ := List.mem_map.mp h
  rw [String.toList_ofList]
  exact Text.not_mem_of_mem_splitOn hcs

/-! ## Names in directories -/

theorem toList_slash : "/".toList = ['/'] := rfl

theorem isRooted_of_not_mem (hslash : '/' ∉ name.toList) : isRooted name = false := by
  rw [isRooted, beq_eq_false_iff_ne]
  intro hhead
  exact hslash (List.mem_of_mem_head? hhead)

theorem pieces_below (directory : String) (hslash : '/' ∉ name.toList) :
    pieces (directory ++ "/" ++ name) = pieces directory ++ [name] := by
  rw [pieces, String.toList_append, String.toList_append, toList_slash, List.append_assoc,
    List.singleton_append, Text.splitOn_append hslash, List.map_append, List.map_singleton,
    String.ofList_toList, pieces]

/-- The pieces of a name in a directory are those of the directory, save for the blank ones at its
end, and the name. -/
theorem pieces_join (directory : String) (hslash : '/' ∉ name.toList) :
    ∃ before blanks, pieces directory = before ++ blanks ∧ (∀ piece ∈ blanks, piece = "") ∧
      pieces (join directory name) = before ++ [name] := by
  unfold join
  rw [isRooted_of_not_mem hslash, Bool.false_or]
  split
  · rename_i hempty
    refine ⟨[], [""], ?_, by simp, ?_⟩
    · rw [String.isEmpty_iff.mp hempty]
      rfl
    · rw [pieces, Text.splitOn_of_not_mem hslash, List.map_singleton, String.ofList_toList,
        List.nil_append]
  · split
    · rename_i hlast
      obtain ⟨front, hfront⟩ := List.getLast?_eq_some_iff.mp (beq_iff_eq.mp hlast)
      refine ⟨(Text.splitOn '/' front).map String.ofList, [""], ?_, by simp, ?_⟩
      · rw [pieces, hfront, Text.splitOn_append List.not_mem_nil, List.map_append]
        rfl
      · rw [pieces, String.toList_append, hfront, List.append_assoc, List.singleton_append,
          Text.splitOn_append hslash, List.map_append, List.map_singleton, String.ofList_toList]
    · exact ⟨pieces directory, [], by rw [List.append_nil], nofun, pieces_below directory hslash⟩

/-- The last piece of a name in a directory is the name. -/
theorem kept_join (directory : String) (hslash : '/' ∉ name.toList) (hname : name.isEmpty = false) :
    (kept (join directory name)).getLast? = some name := by
  obtain ⟨before, _, _, _, hpieces⟩ := pieces_join directory hslash
  rw [kept, hpieces, List.rdropWhile_concat_neg _ _ _ (by simpa using hname)]
  simp

theorem isRooted_join (hslash : '/' ∉ name.toList) (hdirectory : directory.isEmpty = false) :
    isRooted (join directory name) = isRooted directory := by
  obtain ⟨c, cs, hcs⟩ : ∃ c cs, directory.toList = c :: cs := by
    apply List.exists_cons_of_ne_nil
    intro hnil
    rw [String.toList_eq_nil_iff] at hnil
    simp [hnil] at hdirectory
  unfold join
  rw [isRooted_of_not_mem hslash, hdirectory]
  split
  · contradiction
  · split <;> simp [isRooted, hcs]

/-! ## The names on a path -/

/-- A piece that takes one further down. -/
def isName (piece : String) : Bool := !(piece.isEmpty || piece == ".")

def names (path : String) : List String := (pieces path).filter isName

theorem isName_last (h : (kept path).getLast? = some last) (hdot : last ≠ ".") :
    isName last = true := by
  simp [isName, last_ne_empty h, hdot]

theorem filter_kept : (kept path).filter isName = names path := by
  have hblank : ((pieces path).rtakeWhile (·.isEmpty)).filter isName = [] := by
    rw [List.filter_eq_nil_iff]
    intro piece hpiece
    have hempty : piece.isEmpty = true := List.mem_rtakeWhile_imp hpiece
    simp [isName, hempty]
  rw [names]
  rw [← (pieces path).rdropWhile_append_rtakeWhile (p := (·.isEmpty))]
  rw [List.filter_append, hblank, List.append_nil, kept]

theorem names_join (directory : String) (hslash : '/' ∉ name.toList) (hname : isName name = true) :
    names (join directory name) = names directory ++ [name] := by
  obtain ⟨before, blanks, hdirectory, hblanks, hpieces⟩ := pieces_join directory hslash
  have hnone : blanks.filter isName = [] := by
    rw [List.filter_eq_nil_iff]
    intro piece hpiece
    rw [hblanks piece hpiece]
    decide
  rw [names, names, hdirectory, hpieces, List.filter_append, List.filter_append, hnone,
    List.append_nil, List.filter_singleton, hname]
  rfl

theorem intercalate_pieces (path : String) : "/".intercalate (pieces path) = path := by
  rw [← String.toList_inj, String.toList_intercalate, pieces, toList_slash, Text.splitOn_eq_splitOn,
    List.map_map]
  simp [Function.comp_def, List.intercalate_splitOn]

theorem trimmedPieces_below (directory : String) (hslash : '/' ∉ name.toList)
    (hname : isName name = true) :
    trimmedPieces (directory ++ "/" ++ name) = pieces directory ++ [name] := by
  change ((pieces _).zipIdx.rdropWhile fun p => !counts p.2 p.1).map (·.1) = _
  simp only [isName, Bool.not_eq_true', Bool.or_eq_false_iff, beq_eq_false_iff_ne] at hname
  rw [pieces_below directory hslash, List.zipIdx_append, List.zipIdx_singleton,
    List.rdropWhile_concat_neg]
  · simp
  · simp [counts, hname]

theorem fileName?_below (directory : String) (hslash : '/' ∉ name.toList)
    (hname : isName name = true) (hdots : name ≠ "..") :
    fileName? (directory ++ "/" ++ name) = some name := by
  have hdot : name ≠ "." := by
    rintro rfl
    cases hname
  simp [fileName?, trimmedPieces_below directory hslash hname, hdot, hdots]

theorem parent?_below (hslash : '/' ∉ name.toList) (hname : isName name = true)
    (hdirectory : trimmedPieces directory = pieces directory) :
    parent? (directory ++ "/" ++ name) = some directory := by
  have hsome : pieces directory ≠ [] := by simp [pieces, Text.splitOn_ne_nil]
  simp [parent?, trimmedPieces_below directory hslash hname, intercalate_pieces, hdirectory, hsome]

theorem pieces_intercalate {l : List String} (hne : l ≠ []) (h : ∀ piece ∈ l, '/' ∉ piece.toList) :
    pieces ("/".intercalate l) = l := by
  rw [pieces, String.toList_intercalate, toList_slash, Text.splitOn_intercalate]
  · rw [List.map_map]
    simp
  · simpa using h
  · simpa using hne

/-- What the pieces of a path have after the last component is no name. -/
theorem pieces_eq_trimmedPieces_append (path : String) :
    ∃ rest, pieces path = trimmedPieces path ++ rest ∧ ∀ piece ∈ rest, isName piece = false := by
  refine ⟨((pieces path).zipIdx.rtakeWhile fun p => !counts p.2 p.1).map (·.1), ?_, ?_⟩
  · change _ = ((pieces path).zipIdx.rdropWhile fun p => !counts p.2 p.1).map (·.1) ++ _
    rw [← List.map_append, List.rdropWhile_append_rtakeWhile]
    simp
  · intro piece hpiece
    obtain ⟨⟨_, i⟩, hmem, rfl⟩ := List.mem_map.mp hpiece
    have hno := List.mem_rtakeWhile_imp hmem
    simp [counts] at hno
    simp [isName]
    grind

theorem mem_pieces_of_fileName? (h : fileName? path = some name) : name ∈ pieces path := by
  obtain ⟨rest, hrest, -⟩ := pieces_eq_trimmedPieces_append path
  rw [hrest, List.mem_append]
  left
  unfold fileName? at h
  split at h
  · rename_i last hlast
    split at h
    · cases h
    · cases h
      exact List.mem_of_getLast? hlast
  · cases h

theorem names_trimmedPieces (path : String) : (trimmedPieces path).filter isName = names path := by
  obtain ⟨rest, hrest, hno⟩ := pieces_eq_trimmedPieces_append path
  have hnone : rest.filter isName = [] := by simpa using hno
  rw [names, hrest, List.filter_append, hnone, List.append_nil]

theorem counts_last {before : List String} (h : trimmedPieces path = before ++ [last]) :
    counts before.length last = true := by
  have hkept : ((pieces path).zipIdx.rdropWhile fun p => !counts p.2 p.1) =
      (before ++ [last]).zipIdx := by
    obtain ⟨dropped, hdropped⟩ := List.rdropWhile_prefix (fun p => !counts p.2 p.1)
      (pieces path).zipIdx
    obtain ⟨xs, ys, -, hxs, -⟩ := List.zipIdx_eq_append_iff.mp hdropped.symm
    change ((pieces path).zipIdx.rdropWhile fun p => !counts p.2 p.1).map (·.1) = _ at h
    rw [hxs, List.zipIdx_map_fst] at h
    rw [hxs, h]
  have hlast := List.rdropWhile_last_not (fun p => !counts p.2 p.1) (pieces path).zipIdx
  simp only [hkept, List.zipIdx_append, List.zipIdx_singleton] at hlast
  simpa using hlast

theorem isName_or_of_counts {i : Nat} {piece : String} (h : counts i piece = true) :
    isName piece = true ∨ piece = "." ∧ i = 0 := by
  simp [counts] at h
  simp [isName]
  grind

theorem names_concat {before : List String} (h : trimmedPieces path = before ++ [last]) :
    isName last = true ∧ names path = before.filter isName ++ [last] ∨
      last = "." ∧ before = [] ∧ names path = [] := by
  rw [← names_trimmedPieces, h, List.filter_append]
  rcases isName_or_of_counts (counts_last h) with hname | ⟨rfl, hbefore⟩
  · exact .inl ⟨hname, by simp [hname]⟩
  · rw [List.length_eq_zero_iff] at hbefore
    exact .inr ⟨rfl, hbefore, by simp [hbefore, isName]⟩

theorem isRooted_iff :
    isRooted path = true ↔ ∃ more, more ≠ [] ∧ pieces path = "" :: more := by
  rw [isRooted, beq_iff_eq, pieces]
  cases path.toList with
  | nil => simp [Text.splitOn]
  | cons c rest =>
    have hne := Text.splitOn_ne_nil '/' rest
    rw [Text.splitOn]
    by_cases hc : c = '/'
    · simp [hc, hne]
    · obtain ⟨piece, more, hpieces⟩ := List.exists_cons_of_ne_nil hne
      simp [hc, hpieces]

theorem names_of_parent?_eq_none (h : parent? path = none) : names path = [] := by
  rw [← names_trimmedPieces]
  simp only [parent?] at h
  split at h
  · rename_i hnone
    rw [List.isEmpty_iff.mp hnone]
    rfl
  · split at h <;> cases h

/-- A path of slashes only is rooted. -/
theorem isRooted_of_kept (h : kept path = []) (hne : path.isEmpty = false) :
    isRooted path = true := by
  rw [kept, List.rdropWhile_eq_nil_iff] at h
  rw [isRooted, beq_iff_eq]
  cases hcs : path.toList with
  | nil =>
    rw [String.toList_eq_nil_iff] at hcs
    simp [hcs] at hne
  | cons c rest =>
    rw [pieces, hcs, Text.splitOn] at h
    by_cases hc : c = '/'
    · rw [hc]
      rfl
    · obtain ⟨piece, more, hpieces⟩ :=
        List.exists_cons_of_ne_nil (Text.splitOn_ne_nil '/' rest)
      simp [hc, hpieces] at h

/-- The path of the pieces up to some component starts where the whole path does. -/
theorem isRooted_eq_of_pieces {front more : List String} {above : String}
    (habove : pieces above = front) (hpath : pieces path = front ++ more)
    (hfront : front ≠ [""]) (hne : front ≠ []) : isRooted above = isRooted path := by
  rw [Bool.eq_iff_iff, isRooted_iff, isRooted_iff, habove, hpath]
  constructor
  · rintro ⟨names, hnames, rfl⟩
    exact ⟨names ++ more, by simp [hnames], rfl⟩
  · rintro ⟨names, hnames, heq⟩
    obtain ⟨first, others, rfl⟩ := List.exists_cons_of_ne_nil hne
    rw [List.cons_append, List.cons.injEq] at heq
    refine ⟨others, ?_, by rw [heq.1]⟩
    rintro rfl
    exact hfront (by rw [heq.1])

/-- The path above has one name less, and starts where the path does. -/
theorem parent?_eq_some {above : String} (h : parent? path = some above) :
    names above = (names path).dropLast ∧ isRooted above = isRooted path := by
  rcases List.eq_nil_or_concat' (trimmedPieces path) with htrimmed | ⟨before, last, htrimmed⟩
  · simp [parent?, htrimmed] at h
  · have hdrop : (names path).dropLast = before.filter isName := by
      rcases names_concat htrimmed with ⟨-, hnames⟩ | ⟨-, hbefore, hnames⟩
      · rw [hnames, List.dropLast_concat]
      · simp [hnames, hbefore]
    obtain ⟨rest, hpieces, -⟩ := pieces_eq_trimmedPieces_append path
    rw [htrimmed] at hpieces
    simp only [parent?, htrimmed, List.dropLast_concat] at h
    rw [if_neg (by simp)] at h
    have hstart : names (if isRooted path then "/" else "") = [] ∧
        isRooted (if isRooted path then "/" else "") = isRooted path := by
      cases isRooted path <;> exact ⟨rfl, rfl⟩
    by_cases hnil : before = []
    · have hnone : trimmedPieces ("/".intercalate []) = [] := by decide +kernel
      rw [hnil, hnone, List.isEmpty_nil, if_pos rfl, Option.some.injEq] at h
      rw [hdrop, hnil, ← h]
      exact hstart
    · have hbefore : pieces ("/".intercalate before) = before := by
        apply pieces_intercalate hnil
        intro piece hpiece
        have hmem : piece ∈ pieces path := by simp [hpieces, hpiece]
        exact not_mem_of_mem_pieces hmem
      obtain ⟨more, hmore, -⟩ := pieces_eq_trimmedPieces_append ("/".intercalate before)
      have hnames := names_trimmedPieces ("/".intercalate before)
      rw [names, hbefore] at hnames
      rw [hdrop, ← hnames]
      by_cases hnone : trimmedPieces ("/".intercalate before) = []
      · rw [hnone, List.isEmpty_nil, if_pos rfl, Option.some.injEq] at h
        rw [hnone, ← h]
        exact hstart
      · rw [if_neg (by simpa using hnone), Option.some.injEq] at h
        subst h
        have habove : pieces ("/".intercalate (trimmedPieces ("/".intercalate before))) =
            trimmedPieces ("/".intercalate before) := by
          apply pieces_intercalate hnone
          intro piece hpiece
          have hmem : piece ∈ pieces ("/".intercalate before) := by simp [hmore, hpiece]
          exact not_mem_of_mem_pieces hmem
        refine ⟨by rw [names, habove], ?_⟩
        have hpath : pieces path = trimmedPieces ("/".intercalate before) ++
            (more ++ [last] ++ rest) := by
          rw [hpieces]
          nth_rewrite 1 [← hbefore]
          rw [hmore]
          simp
        refine isRooted_eq_of_pieces habove hpath ?_ hnone
        intro hblank
        rw [← List.nil_append [""]] at hblank
        have hcounts : counts 0 "" = true := counts_last hblank
        exact absurd hcounts (by decide)

/-- A path that never goes up ends in its last name. -/
theorem fileName?_eq_getLast? (h : ".." ∉ names path) :
    fileName? path = (names path).getLast? := by
  rcases List.eq_nil_or_concat' (trimmedPieces path) with htrimmed | ⟨before, last, htrimmed⟩
  · simp [fileName?, ← names_trimmedPieces, htrimmed]
  · have hdots : last ≠ ".." := by
      rintro rfl
      apply h
      rw [← names_trimmedPieces, htrimmed]
      simp [isName]
    rcases names_concat htrimmed with ⟨hname, hnames⟩ | ⟨rfl, hbefore, hnames⟩
    · have hdot : last ≠ "." := by
        rintro rfl
        exact absurd hname (by decide)
      simp [fileName?, htrimmed, hnames, hdots, hdot]
    · simp [fileName?, htrimmed, hbefore, hnames]

end Path
end Turnstile
