import Turnstile.Proofs.Text.Case
import Turnstile.Proofs.Text.Decimal
import Turnstile.Proofs.Text.Split
import Turnstile.Settings.Value

/-! The environment holds nothing but texts. One that spells a truth value or a number is taken for
it, and where a text is asked for the value is written again, which may give another text. -/

namespace Turnstile

variable {s : String} {c : Char} {cs : List Char}

/-! ## Characters of numbers and words -/

/-- Letters, digits, signs and points: all that a truth value or a number is written with. -/
def isNumeral (c : Char) : Bool := c.isAlphanum || c == '+' || c == '-' || c == '.'

theorem isNumeral_of_isDigit (h : c.isDigit = true) : isNumeral c = true := by
  simp [isNumeral, Char.isAlphanum, h]

theorem isNumeral_of_isAlpha (h : c.isAlpha = true) : isNumeral c = true := by
  simp [isNumeral, Char.isAlphanum, h]

namespace Decimal

theorem isNumeral_of_natural? {n : Nat} (h : natural? cs = some n) :
    ∀ c ∈ cs, isNumeral c = true :=
  fun c hc => isNumeral_of_isDigit ((natural?_eq_some_iff.mp h).2.1 c hc)

theorem isNumeral_of_integer? {i : Int} (h : integer? cs = some i) :
    ∀ c ∈ cs, isNumeral c = true := by
  unfold integer? at h
  split at h
  · obtain ⟨n, hn, -⟩ := by simpa [Option.bind_eq_some_iff] using h
    exact List.forall_mem_cons.mpr ⟨by decide, isNumeral_of_natural? hn⟩
  · obtain ⟨n, hn, -⟩ := by simpa [Option.bind_eq_some_iff] using h
    unfold unsigned? at hn
    split at hn
    · exact List.forall_mem_cons.mpr ⟨by decide, isNumeral_of_natural? hn⟩
    · exact isNumeral_of_natural? hn

end Decimal

namespace Binary64

variable {negative : Bool} {x : Binary64}

theorem isNumeral_of_readPower? {i : Int} (h : readPower? cs = some i) :
    ∀ c ∈ cs, isNumeral c = true := by
  unfold readPower? at h
  split at h
  · simp
  · rename_i e rest
    split at h
    · cases h
    · rename_i hletter
      have he : e = 'e' ∨ e = 'E' := by
        by_contra hother
        exact hletter (not_or.mp hother)
      refine List.forall_mem_cons.mpr ⟨?_, Decimal.isNumeral_of_integer? h⟩
      rcases he with rfl | rfl <;> decide

theorem isNumeral_of_dropWhile (h : ∀ c ∈ cs.dropWhile Char.isDigit, isNumeral c = true) :
    ∀ c ∈ cs, isNumeral c = true := by
  intro c hc
  rw [← List.takeWhile_append_dropWhile (p := Char.isDigit) (l := cs), List.mem_append] at hc
  rcases hc with hdigits | hrest
  · exact isNumeral_of_isDigit (List.mem_takeWhile_imp hdigits)
  · exact h c hrest

theorem isNumeral_of_readDigits? (h : readDigits? negative cs = some x) :
    ∀ c ∈ cs, isNumeral c = true := by
  refine isNumeral_of_dropWhile ?_
  simp only [readDigits?, Text.drop_takeWhile] at h
  split at h
  · rename_i more hrest
    obtain ⟨-, i, hpower, -⟩ := by simpa [Option.bind_eq_some_iff] using h
    rw [hrest]
    refine List.forall_mem_cons.mpr ⟨by decide, isNumeral_of_dropWhile ?_⟩
    exact isNumeral_of_readPower? hpower
  · obtain ⟨-, i, hpower, -⟩ := by simpa [Option.bind_eq_some_iff] using h
    exact isNumeral_of_readPower? hpower

theorem isNumeral_of_map_toLower {word : String} (hword : word.toList.all Char.isAlpha = true)
    (h : String.ofList (cs.map Char.toLower) = word) : ∀ c ∈ cs, isNumeral c = true := by
  intro c hc
  have hmem : c.toLower ∈ word.toList := by
    rw [← h, String.toList_ofList]
    exact List.mem_map_of_mem hc
  refine isNumeral_of_isAlpha ?_
  rw [← Text.isAlpha_toLower]
  exact List.all_eq_true.mp hword _ hmem

theorem isNumeral_of_parse? (h : parse? s = some x) : ∀ c ∈ s.toList, isNumeral c = true := by
  rw [parse?] at h
  split at h
  rename_i negative cs hsplit
  have hcs : ∀ c ∈ cs, isNumeral c = true := by
    split at h <;> rename_i hword
    · exact isNumeral_of_map_toLower (by decide) hword
    · exact isNumeral_of_map_toLower (by decide) hword
    · exact isNumeral_of_map_toLower (by decide) hword
    · exact isNumeral_of_readDigits? h
  split at hsplit
  · rename_i hlist
    cases hsplit
    rw [hlist]
    exact List.forall_mem_cons.mpr ⟨by decide, hcs⟩
  · rename_i hlist
    cases hsplit
    rw [hlist]
    exact List.forall_mem_cons.mpr ⟨by decide, hcs⟩
  · cases hsplit
    exact hcs

end Binary64

namespace Setting

/-- The texts that stand for a value which is written in another way. -/
inductive Rewritten (s : String) : Prop where
  /-- A truth value with a capital. -/
  | truth (hword : Text.toLower s = "true" ∨ Text.toLower s = "false") (hcase : Text.toLower s ≠ s)
  /-- A whole number with a plus sign or a zero in front, or zero with a sign. -/
  | whole {n : Int} (hread : readInt? s = some n) (hplain : Decimal.plain s.toList = false)
  /-- Another number, not in its shortest form. -/
  | number {x : Binary64} (hwhole : readInt? s = none) (hread : Binary64.parse? s = some x)
    (hform : x.render ≠ s)

theorem toText?_of_word (h : Text.toLower s = "true" ∨ Text.toLower s = "false") :
    (ofEnvironment s).toText? = some (Text.toLower s) := by
  rcases h with hword | hword <;> rw [ofEnvironment, hword] <;> rfl

theorem ofEnvironment_of_no_word (h : ¬(Text.toLower s = "true" ∨ Text.toLower s = "false")) :
    ofEnvironment s = (readInt? s).elim ((Binary64.parse? s).elim (text s) float) int := by
  rw [ofEnvironment]
  split
  · rename_i hword
    exact absurd (.inl hword) h
  · rename_i hword
    exact absurd (.inr hword) h
  · split <;> rename_i hint
    · rw [hint]
      rfl
    · rw [hint]
      split <;> rename_i hfloat <;> rw [hfloat] <;> rfl

theorem repr_eq_iff_of_readInt? {n : Int} (h : readInt? s = some n) :
    n.repr = s ↔ Decimal.plain s.toList = true := by
  rw [← String.toList_inj]
  exact Decimal.toList_repr_eq_iff (Option.filter_eq_some_iff.mp h).1

theorem rewritten_iff_of_word (h : Text.toLower s = "true" ∨ Text.toLower s = "false") :
    Rewritten s ↔ Text.toLower s ≠ s := by
  refine ⟨fun hrewritten hsame => ?_, .truth h⟩
  have hnone : readInt? s = none ∧ Binary64.parse? s = none := by
    rw [hsame] at h
    rcases h with rfl | rfl <;> decide +kernel
  cases hrewritten with
  | truth _ hcase => exact hcase hsame
  | whole hread => simp [hnone.1] at hread
  | number _ hread => simp [hnone.2] at hread

section

variable (hword : ¬(Text.toLower s = "true" ∨ Text.toLower s = "false"))
include hword

theorem rewritten_iff_of_whole {n : Int} (hread : readInt? s = some n) :
    Rewritten s ↔ Decimal.plain s.toList = false := by
  refine ⟨fun hrewritten => ?_, .whole hread⟩
  cases hrewritten with
  | truth hword' => exact absurd hword' hword
  | whole _ hplain => exact hplain
  | number hwhole => simp [hwhole] at hread

theorem rewritten_iff_of_number {x : Binary64} (hwhole : readInt? s = none)
    (hread : Binary64.parse? s = some x) : Rewritten s ↔ x.render ≠ s := by
  refine ⟨fun hrewritten => ?_, .number hwhole hread⟩
  cases hrewritten with
  | truth hword' => exact absurd hword' hword
  | whole hread' => simp [hwhole] at hread'
  | number _ hread' hform => rwa [Option.some.inj (hread.symm.trans hread')]

theorem not_rewritten_of_text (hwhole : readInt? s = none) (hnumber : Binary64.parse? s = none) :
    ¬Rewritten s := by
  intro hrewritten
  cases hrewritten with
  | truth hword' => exact hword hword'
  | whole hread => simp [hwhole] at hread
  | number _ hread => simp [hnumber] at hread

end

/-- A text in the environment is the text that is read, unless it stands for a value which is
written in another way. -/
theorem toText?_ofEnvironment (s : String) : ∃ t, (ofEnvironment s).toText? = some t ∧
    (t = s ↔ ¬Rewritten s) := by
  by_cases hword : Text.toLower s = "true" ∨ Text.toLower s = "false"
  · exact ⟨_, toText?_of_word hword, by rw [rewritten_iff_of_word hword, not_not]⟩
  · rw [ofEnvironment_of_no_word hword]
    cases hwhole : readInt? s with
    | some n =>
      refine ⟨_, rfl, ?_⟩
      rw [rewritten_iff_of_whole hword hwhole, repr_eq_iff_of_readInt? hwhole, Bool.not_eq_false]
    | none =>
      cases hnumber : Binary64.parse? s with
      | some x => exact ⟨_, rfl, by rw [rewritten_iff_of_number hword hwhole hnumber, not_not]⟩
      | none => exact ⟨_, rfl, iff_of_true rfl (not_rewritten_of_text hword hwhole hnumber)⟩

/-- A text with any other character than those of numbers and words is taken as it is. -/
theorem not_rewritten_of_mem (hc : c ∈ s.toList) (hmark : isNumeral c = false) : ¬Rewritten s := by
  intro hrewritten
  have hnumeral : isNumeral c = true := by
    cases hrewritten with
    | truth hword =>
      have hletters : (Text.toLower s).toList.all (fun d => d.isAlpha && d != 'k') = true := by
        rcases hword with hword | hword <;> rw [hword] <;> decide
      exact isNumeral_of_isAlpha (Text.isAlpha_of_toLower hletters c hc)
    | whole hread => exact Decimal.isNumeral_of_integer? (Option.filter_eq_some_iff.mp hread).1 c hc
    | number _ hread => exact Binary64.isNumeral_of_parse? hread c hc
  rw [hmark] at hnumeral
  cases hnumeral

end Setting

end Turnstile
