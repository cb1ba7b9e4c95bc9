import Turnstile.Text.Case

/-! Texts in lower case. Letters of ASCII that differ in case have one lower case, and so have texts
that differ in such letters only, since no rule on a letter tells the two cases apart. -/

namespace Turnstile.Text

/-! ## Letters of ASCII -/

def capitals : List Char := (List.range 26).map fun n => Char.ofNat (65 + n)

theorem toLower_eq_or_capital (c : Char) : c.toLower = c ∨ c ∈ capitals := by
  unfold Char.toLower
  split
  · rename_i hcapital
    right
    have hlow : 65 ≤ c.toNat := hcapital.1
    have hhigh : c.toNat ≤ 90 := hcapital.2
    refine List.mem_map.mpr ⟨c.toNat - 65, List.mem_range.mpr (by omega), ?_⟩
    rw [Nat.add_sub_cancel' hlow, Char.ofNat_toNat]
  · exact .inl rfl

/-- What does not tell the capitals from the small letters does not tell apart the cases of any
character. -/
theorem toLower_invariant {α : Type} [DecidableEq α] {f : Char → α}
    (h : (capitals.all fun c => f c.toLower = f c) = true) (c : Char) : f c.toLower = f c := by
  rcases toLower_eq_or_capital c with hsame | hcapital
  · rw [hsame]
  · simpa using List.all_eq_true.mp h c hcapital

theorem isIgnorable_toLower (c : Char) : isIgnorable c.toLower = isIgnorable c :=
  toLower_invariant (by decide +kernel) c

theorem isCased_toLower (c : Char) : isCased c.toLower = isCased c :=
  toLower_invariant (by decide +kernel) c

theorem lowerChar_toLower (c : Char) : lowerChar c.toLower = lowerChar c :=
  toLower_invariant (by decide +kernel) c

theorem isSigma_toLower (c : Char) : decide (c.toLower = 'Σ') = decide (c = 'Σ') :=
  toLower_invariant (f := fun c => decide (c = 'Σ')) (by decide +kernel) c

/-! ## Texts -/

theorem meetsCased_map (cs : List Char) : meetsCased (cs.map Char.toLower) = meetsCased cs := by
  have hignorable : isIgnorable ∘ Char.toLower = isIgnorable := funext isIgnorable_toLower
  have hcased : (fun c => isCased c.toLower) = isCased := funext isCased_toLower
  rw [meetsCased, List.dropWhile_map, List.head?_map, Option.any_map, hignorable, hcased,
    meetsCased]

theorem lowerFrom_map (before cs : List Char) :
    lowerFrom (before.map Char.toLower) (cs.map Char.toLower) = lowerFrom before cs := by
  induction cs generalizing before with
  | nil => rfl
  | cons c rest ih =>
    have hsigma : c.toLower = 'Σ' ↔ c = 'Σ' := by simpa using isSigma_toLower c
    have hrest := ih (c :: before)
    rw [List.map_cons] at hrest
    simp only [List.map_cons, lowerFrom, hsigma, meetsCased_map, lowerChar_toLower, hrest]

@[simp] theorem toLower_asciiLower (s : String) : toLower (asciiLower s) = toLower s := by
  have hmap := lowerFrom_map [] s.toList
  rw [toLower, toLower, asciiLower, String.toList_ofList]
  exact congrArg String.ofList hmap

theorem toLower_eq_of_equalIgnoringAsciiCase {a b : String}
    (h : equalIgnoringAsciiCase a b = true) : toLower a = toLower b := by
  rw [← toLower_asciiLower a, beq_iff_eq.mp h, toLower_asciiLower]

theorem lowerFrom_eq_nil_iff {before cs : List Char} : lowerFrom before cs = [] ↔ cs = [] := by
  cases cs with
  | nil => simp [lowerFrom]
  | cons c rest =>
    have hhead : lowerChar c ≠ [] := by
      unfold lowerChar
      split <;> simp
    rw [lowerFrom]
    split <;> simp [hhead]

theorem toLower_eq_empty_iff {s : String} : toLower s = "" ↔ s = "" := by
  rw [toLower, ← String.toList_eq_nil_iff, String.toList_ofList, lowerFrom_eq_nil_iff,
    String.toList_eq_nil_iff]

/-! ## Words of letters -/

variable {c : Char} {n : Nat}

theorem isAlpha_toLower (c : Char) : c.toLower.isAlpha = c.isAlpha :=
  toLower_invariant (by decide +kernel) c

theorem toNat_lt_of_isAlpha (h : c.isAlpha = true) : c.toNat < 0x80 := by
  rcases Bool.or_eq_true_iff.mp h with hupper | hlower
  · have hlast : c.toNat ≤ 90 := (of_decide_eq_true hupper).2
    omega
  · have hlast : c.toNat ≤ 122 := of_decide_eq_true (Bool.and_eq_true_iff.mp hlower).2
    omega

theorem isAlpha_ofNat (h : 0x80 ≤ n) : (Char.ofNat n).isAlpha = false := by
  rw [Bool.eq_false_iff]
  intro halpha
  by_cases hvalid : n.isValidChar
  · have hchar : Char.ofNat n = Char.ofNatAux n hvalid := dif_pos hvalid
    have hnat : (Char.ofNat n).toNat = n := congrArg Char.toNat hchar
    have hlow := toNat_lt_of_isAlpha halpha
    omega
  · have hchar : Char.ofNat n = '\x00' := dif_neg hvalid
    rw [hchar] at halpha
    cases halpha

/-- Only the sign of the Kelvin has a letter of ASCII for its partner. -/
theorem apply_eq_of_isAlpha {r : CaseRun} (hr : r ∈ caseRuns) (hcovers : r.covers n = true)
    (halpha : (r.apply n).isAlpha = true) : r.apply n = 'k' := by
  have hruns : ∀ r ∈ caseRuns,
      0x80 ≤ r.first + r.shift ∨ r.first = r.last ∧ r.first + r.shift = 107 := by
    decide +kernel
  have hrange : r.first ≤ n ∧ n ≤ r.last := by
    rw [CaseRun.covers, Bool.and_eq_true, Bool.and_eq_true] at hcovers
    exact ⟨of_decide_eq_true hcovers.1.1, of_decide_eq_true hcovers.1.2⟩
  rw [CaseRun.apply] at halpha ⊢
  rcases hruns r hr with hhigh | ⟨hone, hkelvin⟩
  · rw [isAlpha_ofNat (by omega)] at halpha
    cases halpha
  · have hn : ((n : Int) + r.shift).toNat = 107 := by omega
    rw [hn]

theorem isAlpha_of_lowerPartner (h : (lowerPartner c).isAlpha = true)
    (hkelvin : lowerPartner c ≠ 'k') : c.isAlpha = true := by
  unfold lowerPartner at h hkelvin
  by_cases hascii : c.toNat < 0x80
  · rwa [if_pos hascii, isAlpha_toLower] at h
  · rw [if_neg hascii] at h hkelvin
    cases hfound : caseRuns.find? (·.covers c.toNat) with
    | none =>
      rw [hfound] at h
      exact h
    | some r =>
      rw [hfound] at h hkelvin
      have hcovers : r.covers c.toNat = true := by simpa using List.find?_some hfound
      exact absurd (apply_eq_of_isAlpha (List.mem_of_find?_eq_some hfound) hcovers h) hkelvin

theorem isAlpha_of_lowerFrom {before cs : List Char}
    (h : ∀ d ∈ lowerFrom before cs, d.isAlpha = true ∧ d ≠ 'k') : ∀ c ∈ cs, c.isAlpha = true := by
  induction cs generalizing before with
  | nil => exact fun c hc => absurd hc List.not_mem_nil
  | cons c rest ih =>
    rw [lowerFrom] at h
    refine List.forall_mem_cons.mpr
      ⟨?_, ih fun d hd => h d (List.mem_append_right _ hd)⟩
    have hfirst := fun d hd => h d (List.mem_append_left _ hd)
    by_cases hsigma : c = 'Σ'
    · rw [if_pos hsigma] at hfirst
      have hend := (hfirst _ List.mem_cons_self).1
      split at hend <;> cases hend
    · rw [if_neg hsigma, lowerChar] at hfirst
      by_cases hdotted : c = 'İ'
      · rw [if_pos hdotted] at hfirst
        cases (hfirst '\u0307' (by decide)).1
      · rw [if_neg hdotted] at hfirst
        obtain ⟨halpha, hkelvin⟩ := hfirst _ List.mem_cons_self
        exact isAlpha_of_lowerPartner halpha hkelvin

/-- No text but one of letters of ASCII has such letters, without a `k`, for its lower case. -/
theorem isAlpha_of_toLower {s : String}
    (h : (toLower s).toList.all (fun d => d.isAlpha && d != 'k') = true) :
    ∀ c ∈ s.toList, c.isAlpha = true := by
  rw [toLower, String.toList_ofList] at h
  exact isAlpha_of_lowerFrom fun d hd => by simpa using List.all_eq_true.mp h d hd

end Turnstile.Text
