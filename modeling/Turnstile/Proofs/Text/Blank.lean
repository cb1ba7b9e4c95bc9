import Turnstile.Text.Blank
import Mathlib.Data.List.DropRight

/-! Cutting a text at both ends leaves nothing to cut, and a text without blanks is left as it is.
-/

namespace Turnstile.Text

theorem toList_trim (s : String) :
    (trim s).toList = (s.toList.dropWhile isBlank).rdropWhile isBlank := by
  simp [trim, trimStart, trimEnd, List.rdropWhile]

/-- A cut at the end does not bring a blank to the front. -/
theorem dropWhile_rdropWhile_dropWhile {α : Type} (p : α → Bool) (l : List α) :
    ((l.dropWhile p).rdropWhile p).dropWhile p = (l.dropWhile p).rdropWhile p := by
  obtain ⟨tail, htail⟩ := List.rdropWhile_prefix p (l.dropWhile p)
  cases hcut : (l.dropWhile p).rdropWhile p with
  | nil => rfl
  | cons a rest =>
    rw [hcut, List.cons_append] at htail
    have ha := List.head?_dropWhile_not p l
    rw [← htail, List.head?_cons] at ha
    exact List.dropWhile_cons_of_neg (Bool.not_eq_true _ ▸ ha)

theorem rdropWhile_append_of_pos {α : Type} {p : α → Bool} {l blanks : List α}
    (h : ∀ a ∈ blanks, p a = true) : (l ++ blanks).rdropWhile p = l.rdropWhile p := by
  rw [List.rdropWhile, List.reverse_append, List.dropWhile_append_of_pos, List.rdropWhile]
  intro a ha
  exact h a (List.mem_reverse.mp ha)

@[simp] theorem trim_trim (s : String) : trim (trim s) = trim s := by
  apply String.toList_inj.mp
  rw [toList_trim, toList_trim, dropWhile_rdropWhile_dropWhile, List.rdropWhile_idempotent]

/-- Neither end of a trimmed text is blank. -/
theorem isBlank_ends_trim (s : String) :
    (∀ c ∈ (trim s).toList.head?, isBlank c = false) ∧
      ∀ c ∈ (trim s).toList.getLast?, isBlank c = false := by
  constructor
  · intro c hc
    have hfirst := List.head?_dropWhile_not isBlank
      ((s.toList.dropWhile isBlank).rdropWhile isBlank)
    rw [dropWhile_rdropWhile_dropWhile, ← toList_trim, Option.mem_def.mp hc] at hfirst
    exact hfirst
  · intro c hc
    rw [toList_trim] at hc
    obtain ⟨hne, rfl⟩ := List.mem_getLast?_eq_getLast hc
    exact Bool.eq_false_iff.mpr (List.rdropWhile_last_not isBlank _ hne)

theorem dropWhile_isBlank_of_plain {cs : List Char} (h : ∀ c ∈ cs, isBlank c = false) :
    cs.dropWhile isBlank = cs := by
  cases cs with
  | nil => rfl
  | cons c rest => exact List.dropWhile_cons_of_neg (by simp [h c List.mem_cons_self])

theorem trim_of_plain {s : String} (h : ∀ c ∈ s.toList, isBlank c = false) : trim s = s := by
  have hreversed : s.toList.reverse.dropWhile isBlank = s.toList.reverse :=
    dropWhile_isBlank_of_plain fun c hc => h c (List.mem_reverse.mp hc)
  apply String.toList_inj.mp
  rw [toList_trim, dropWhile_isBlank_of_plain h, List.rdropWhile, hreversed, List.reverse_reverse]

theorem trim_of_blank {s : String} (h : blank s = true) : trim s = "" := by
  have hcut : s.toList.dropWhile isBlank = [] :=
    List.dropWhile_eq_nil_iff.mpr (List.all_eq_true.mp h)
  apply String.toList_inj.mp
  rw [toList_trim, hcut]
  rfl

theorem trim_eq_empty_iff {s : String} : trim s = "" ↔ blank s = true := by
  refine ⟨fun h => ?_, trim_of_blank⟩
  have hempty : s.toList.dropWhile isBlank = [] := by
    by_contra hne
    have hfirst := List.head?_dropWhile_not isBlank s.toList
    rw [List.head?_eq_some_head hne] at hfirst
    rw [← String.toList_inj, toList_trim, String.toList_empty, List.rdropWhile_eq_nil_iff] at h
    exact absurd (h _ (List.head_mem hne)) (Bool.eq_false_iff.mp hfirst)
  exact List.all_eq_true.mpr (List.dropWhile_eq_nil_iff.mp hempty)

theorem isEmpty_trim (s : String) : (trim s).isEmpty = blank s := by
  rw [Bool.eq_iff_iff, String.isEmpty_iff, trim_eq_empty_iff]

@[simp] theorem blank_trim (s : String) : blank (trim s) = blank s := by
  rw [← isEmpty_trim, trim_trim, isEmpty_trim]

theorem blank_append (s t : String) : blank (s ++ t) = (blank s && blank t) := by
  rw [blank, String.toList_append, List.all_append, ← blank, ← blank]

theorem length_trim_le (s : String) : (trim s).length ≤ s.length := by
  rw [← String.length_toList, ← String.length_toList, toList_trim]
  exact (List.rdropWhile_prefix isBlank _).length_le.trans
    (List.dropWhile_suffix isBlank).length_le

/-! ## Blanks around a text -/

@[simp] theorem trimStart_trim (s : String) : trimStart (trim s) = trim s := by
  apply String.toList_inj.mp
  rw [trimStart, String.toList_ofList, toList_trim, dropWhile_rdropWhile_dropWhile]

@[simp] theorem trim_trimStart (s : String) : trim (trimStart s) = trim s := by
  apply String.toList_inj.mp
  rw [toList_trim, toList_trim, trimStart, String.toList_ofList, List.dropWhile_idempotent]

theorem trim_append_of_blank_left {s : String} (h : blank s = true) (t : String) :
    trim (s ++ t) = trim t := by
  have hstart : trimStart (s ++ t) = trimStart t := by
    rw [trimStart, String.toList_append, List.dropWhile_append_of_pos (List.all_eq_true.mp h),
      ← trimStart]
  rw [← trim_trimStart, hstart, trim_trimStart]

/-- What a cut at the end takes away is blank. -/
theorem exists_blank_tail (s : String) :
    ∃ tail, (∀ c ∈ tail, isBlank c = true) ∧ (trimStart s).toList = (trim s).toList ++ tail := by
  refine ⟨(s.toList.dropWhile isBlank).rtakeWhile isBlank, fun c => List.mem_rtakeWhile_imp, ?_⟩
  rw [toList_trim, List.rdropWhile_append_rtakeWhile, trimStart, String.toList_ofList]

theorem trim_append_of_blank {cs tail : List Char} (h : ∀ c ∈ tail, isBlank c = true) :
    trim (String.ofList (cs ++ tail)) = trim (String.ofList cs) := by
  apply String.toList_inj.mp
  simp only [toList_trim, String.toList_ofList, List.dropWhile_append]
  split
  · rename_i hcs
    rw [List.isEmpty_iff] at hcs
    rw [hcs, List.dropWhile_eq_nil_iff.mpr h]
  · rw [rdropWhile_append_of_pos h]

/-- Blanks around a text do not change what is left of it. -/
theorem trim_surrounded {before after : String} (hbefore : blank before = true)
    (hafter : blank after = true) (s : String) : trim (before ++ s ++ after) = trim s := by
  have htail : s ++ after = String.ofList (s.toList ++ after.toList) := by
    rw [String.ofList_append, String.ofList_toList, String.ofList_toList]
  rw [String.append_assoc, trim_append_of_blank_left hbefore, htail,
    trim_append_of_blank (List.all_eq_true.mp hafter), String.ofList_toList]

end Turnstile.Text
