import Turnstile.Text.Case
import Turnstile.Text.Split
import Mathlib.Data.List.TakeWhile

/-! A text cut at all of its marks or at the first one, and a text cut after a start whose letters
may be of any case. A start that ends with the only mark in it is found where the piece before the
first mark is that start. -/

namespace Turnstile.Text

variable {mark : Char} {xs ys cs : List Char}

theorem drop_takeWhile (p : Char → Bool) (cs : List Char) :
    cs.drop (cs.takeWhile p).length = cs.dropWhile p := by
  have hparts : (cs.takeWhile p ++ cs.dropWhile p).drop (cs.takeWhile p).length =
      cs.dropWhile p := List.drop_left
  rwa [List.takeWhile_append_dropWhile] at hparts

/-! ## All marks -/

theorem splitOn_eq_splitOn (mark : Char) (cs : List Char) : splitOn mark cs = cs.splitOn mark := by
  induction cs with
  | nil => simp [splitOn]
  | cons c rest ih =>
    rw [splitOn, List.splitOn_cons_eq_if_modifyHead, ih]
    by_cases hc : c = mark
    · simp [hc]
    · obtain ⟨piece, more, hpieces⟩ := List.exists_cons_of_ne_nil (List.splitOn_ne_nil mark rest)
      simp [hc, hpieces]

theorem splitOn_of_not_mem (h : mark ∉ ys) : splitOn mark ys = [ys] := by
  rw [splitOn_eq_splitOn, List.splitOn_eq_singleton h]

theorem splitOn_intercalate {pieces : List (List Char)} (h : ∀ piece ∈ pieces, mark ∉ piece)
    (hne : pieces ≠ []) : splitOn mark ([mark].intercalate pieces) = pieces := by
  rw [splitOn_eq_splitOn, List.splitOn_intercalate mark h hne]

theorem not_mem_of_mem_splitOn (h : ys ∈ splitOn mark xs) : mark ∉ ys := by
  induction xs generalizing ys with
  | nil =>
    rw [splitOn, List.mem_singleton] at h
    rw [h]
    exact List.not_mem_nil
  | cons c rest ih =>
    rw [splitOn] at h
    by_cases hc : c = mark
    · rw [if_pos hc, List.mem_cons] at h
      rcases h with rfl | h
      · exact List.not_mem_nil
      · exact ih h
    · rw [if_neg hc] at h
      obtain ⟨piece, more, hpieces⟩ := List.exists_cons_of_ne_nil (splitOn_ne_nil mark rest)
      rw [hpieces] at h ih
      rcases List.mem_cons.mp h with rfl | h
      · rw [List.mem_cons, not_or]
        exact ⟨Ne.symm hc, ih List.mem_cons_self⟩
      · exact ih (List.mem_cons_of_mem _ h)

/-- What stands after a mark and has none in it is the last piece. -/
theorem splitOn_append (h : mark ∉ ys) :
    splitOn mark (xs ++ mark :: ys) = splitOn mark xs ++ [ys] := by
  induction xs with
  | nil =>
    rw [List.nil_append, splitOn.eq_2, if_pos rfl, splitOn_of_not_mem h]
    rfl
  | cons c rest ih =>
    rw [List.cons_append, splitOn, splitOn, ih]
    by_cases hc : c = mark
    · rw [if_pos hc, if_pos hc, List.cons_append]
    · rw [if_neg hc, if_neg hc]
      obtain ⟨piece, more, hpieces⟩ := List.exists_cons_of_ne_nil (splitOn_ne_nil mark rest)
      rw [hpieces]
      rfl

/-! ## The first mark -/

theorem splitAt_of_not_mem (h : mark ∉ xs) : splitAt mark (xs ++ mark :: ys) = (xs, some ys) := by
  have hxs : ∀ c ∈ xs, (c != mark) = true := by
    intro c hc
    exact bne_iff_ne.mpr fun heq => h (heq ▸ hc)
  rw [splitAt, List.dropWhile_append_of_pos hxs, List.takeWhile_append_of_pos hxs,
    List.dropWhile_cons_of_neg (by simp), List.takeWhile_cons_of_neg (by simp), List.append_nil]

theorem splitAt_of_unmarked (h : mark ∉ cs) : splitAt mark cs = (cs, none) := by
  have hcs : cs.dropWhile (· != mark) = [] := by
    rw [List.dropWhile_eq_nil_iff]
    intro c hc
    exact bne_iff_ne.mpr fun heq => h (heq ▸ hc)
  rw [splitAt, hcs]

theorem exists_first_mark (h : mark ∈ cs) : ∃ xs ys, mark ∉ xs ∧ cs = xs ++ mark :: ys := by
  obtain ⟨xs, ys, hcs, hxs⟩ := List.eq_append_cons_of_mem h
  exact ⟨xs, ys, hxs, hcs⟩

/-! ## A start in any case -/

/-- What follows the start of a text, if its letters are those of `start` in any case. -/
def after? (start text : String) : Option String :=
  if equalIgnoringAsciiCase (String.ofList (text.toList.take start.length)) start then
    some (String.ofList (text.toList.drop start.length))
  else none

theorem equalIgnoringAsciiCase_iff {a b : String} :
    equalIgnoringAsciiCase a b = true ↔ a.toList.map Char.toLower = b.toList.map Char.toLower := by
  rw [equalIgnoringAsciiCase, beq_iff_eq, asciiLower, asciiLower, String.ofList_inj]

theorem after?_eq_some_iff {start text rest : String} :
    after? start text = some rest ↔
      ∃ given, text = given ++ rest ∧ equalIgnoringAsciiCase given start = true := by
  unfold after?
  constructor
  · intro h
    split at h
    · rename_i hstart
      rw [Option.some.injEq] at h
      refine ⟨_, ?_, hstart⟩
      rw [← h, ← String.ofList_append, List.take_append_drop, String.ofList_toList]
    · cases h
  · rintro ⟨given, rfl, hgiven⟩
    have hlength : given.toList.length = start.length := by
      have hletters := congrArg List.length (equalIgnoringAsciiCase_iff.mp hgiven)
      rwa [List.length_map, List.length_map, String.length_toList (s := start)] at hletters
    rw [String.toList_append, ← hlength, List.take_left, List.drop_left, String.ofList_toList,
      String.ofList_toList, if_pos hgiven]

end Turnstile.Text
