import Mathlib.Data.List.Induction
import Turnstile.Text.Decimal

/-! Decimal notation as it is written, `Nat.toDigits 10` with zeros in front or not, and its value
when it is read. -/

namespace Turnstile.Decimal

variable {n k : Nat} {i : Int} {c : Char} {cs ds : List Char}

theorem value_eq_ofDigitChars (ds : List Char) : value ds = Nat.ofDigitChars 10 ds 0 := by
  rw [value, Nat.ofDigitChars_eq_foldl]
  congr 1
  funext total c
  rw [digitValue, Nat.mul_comm]
  rfl

theorem isDigit_toDigits (h : c ∈ Nat.toDigits 10 n) : c.isDigit = true :=
  Nat.isDigit_of_mem_toDigits (by omega) (by omega) h

/-- Zeros in front change no value. -/
theorem value_zeros_toDigits : value (List.replicate k '0' ++ Nat.toDigits 10 n) = n := by
  rw [value_eq_ofDigitChars, Nat.ofDigitChars_append, Nat.ofDigitChars_replicate_zero,
    Nat.mul_zero, Nat.ofDigitChars_ten_toDigits]

/-- Only zero starts with a zero. -/
theorem head?_toDigits (h : 0 < n) : (Nat.toDigits 10 n).head? ≠ some '0' := by
  induction n using Nat.strongRecOn with
  | ind n ih =>
    by_cases hsmall : n < 10
    · rw [Nat.toDigits_of_lt_base hsmall]
      have hdigit : ∀ m, m < 10 → 0 < m → m.digitChar ≠ '0' := by decide
      simpa using hdigit n hsmall h
    · obtain ⟨first, others, hfront⟩ :=
        List.exists_cons_of_ne_nil (Nat.toDigits_ne_nil (n := n / 10) (b := 10))
      have hrest := ih (n / 10) (by omega) (by omega)
      rw [Nat.toDigits_of_base_le (by omega) (by omega)]
      rw [hfront] at hrest ⊢
      exact hrest

theorem natural?_eq_some_iff : natural? cs = some n ↔
    cs ≠ [] ∧ (∀ c ∈ cs, c.isDigit = true) ∧ value cs = n := by
  simp [natural?, and_assoc]

theorem digitValue_lt (h : c.isDigit = true) : digitValue c < 10 := by
  have hbounds : 48 ≤ c.toNat ∧ c.toNat ≤ 57 := Char.isDigit_iff_toNat.mp h
  rw [digitValue]
  omega

theorem digitChar_digitValue (h : c.isDigit = true) : (digitValue c).digitChar = c := by
  have hbounds : 48 ≤ c.toNat ∧ c.toNat ≤ 57 := Char.isDigit_iff_toNat.mp h
  rw [← Char.toNat_inj, Nat.toNat_digitChar_of_lt_ten (digitValue_lt h), digitValue]
  omega

theorem value_concat (ds : List Char) (c : Char) :
    value (ds ++ [c]) = value ds * 10 + digitValue c := by
  rw [value, List.foldl_append]
  rfl

/-- Digits without a zero in front are those of their value. -/
theorem toDigits_value (hne : ds ≠ []) (hds : ∀ c ∈ ds, c.isDigit = true)
    (hhead : ds.head? ≠ some '0') : Nat.toDigits 10 (value ds) = ds ∧ 0 < value ds := by
  induction ds using List.reverseRecOn with
  | nil => exact absurd rfl hne
  | append_singleton front c ih =>
    have hc := hds c (by simp)
    rw [value_concat]
    by_cases hfront : front = []
    · subst hfront
      have hzero : digitValue c ≠ 0 := by
        intro hzero
        have hchar := digitChar_digitValue hc
        rw [hzero] at hchar
        exact hhead (congrArg some hchar.symm)
      have hvalue : value [] * 10 + digitValue c = digitValue c := by simp [value]
      rw [hvalue, Nat.toDigits_of_lt_base (digitValue_lt hc), digitChar_digitValue hc]
      exact ⟨rfl, Nat.pos_of_ne_zero hzero⟩
    · obtain ⟨hdigits, hpos⟩ := ih hfront (fun d hd => hds d (by simp [hd])) (by
        rwa [List.head?_append, Option.or_of_isSome (List.isSome_head?.mpr hfront)] at hhead)
      have hlt := digitValue_lt hc
      have hfirst : (value front * 10 + digitValue c) / 10 = value front := by omega
      have hlast : (value front * 10 + digitValue c) % 10 = digitValue c := by omega
      rw [Nat.toDigits_of_base_le (by omega) (by omega), hfirst, hlast, hdigits,
        digitChar_digitValue hc]
      exact ⟨rfl, by omega⟩

/-- No zero in front, but for zero itself. -/
def unpadded (ds : List Char) : Bool := ds == ['0'] || ds.head? != some '0'

theorem toDigits_value_eq_iff (hne : ds ≠ []) (hds : ∀ c ∈ ds, c.isDigit = true) :
    Nat.toDigits 10 (value ds) = ds ↔ unpadded ds = true := by
  rw [unpadded, Bool.or_eq_true, beq_iff_eq, bne_iff_ne]
  constructor
  · intro hdigits
    by_cases hzero : value ds = 0
    · left
      rw [hzero] at hdigits
      exact hdigits.symm
    · right
      rw [← hdigits]
      exact head?_toDigits (Nat.pos_of_ne_zero hzero)
  · rintro (rfl | hhead)
    · rfl
    · exact (toDigits_value hne hds hhead).1

/-- No plus sign, no zero in front, and no sign before zero. -/
def plain : List Char → Bool
  | '-' :: ds => ds.head? != some '0'
  | '+' :: _ => false
  | ds => unpadded ds

theorem toList_repr_natCast (n : Nat) : (n : Int).repr.toList = Nat.toDigits 10 n := by
  rw [Int.repr_eq_if, if_pos (Int.natCast_nonneg n), Int.toNat_natCast, Nat.toList_repr]

theorem toList_repr_neg (h : 0 < n) : (-(n : Int)).repr.toList = '-' :: Nat.toDigits 10 n := by
  rw [Int.repr_eq_if, if_neg (by omega), Int.neg_neg, Int.toNat_natCast, String.toList_append,
    Nat.toList_repr]
  rfl

/-- A whole number is written as it was read exactly if it was written plainly. -/
theorem toList_repr_eq_iff (h : integer? cs = some i) : i.repr.toList = cs ↔ plain cs = true := by
  unfold integer? at h
  split at h
  · rename_i ds
    obtain ⟨n, hn, rfl⟩ : ∃ n : Nat, natural? ds = some n ∧ -(n : Int) = i := by
      simpa [Option.bind_eq_some_iff] using h
    obtain ⟨hne, hds, rfl⟩ := natural?_eq_some_iff.mp hn
    rw [plain, bne_iff_ne]
    constructor
    · intro hrepr
      by_cases hzero : value ds = 0
      · rw [hzero] at hrepr
        cases hrepr
      · have hpos := Nat.pos_of_ne_zero hzero
        rw [toList_repr_neg hpos] at hrepr
        rw [← List.tail_eq_of_cons_eq hrepr]
        exact head?_toDigits hpos
    · intro hhead
      obtain ⟨hdigits, hpos⟩ := toDigits_value hne hds hhead
      rw [toList_repr_neg hpos, hdigits]
  · obtain ⟨n, hn, rfl⟩ : ∃ n : Nat, unsigned? cs = some n ∧ (n : Int) = i := by
      simpa [Option.bind_eq_some_iff] using h
    rw [toList_repr_natCast]
    unfold unsigned? at hn
    split at hn
    · have hplus : '+' ∉ Nat.toDigits 10 n := fun hmem =>
        absurd (isDigit_toDigits hmem) (by decide)
      rw [plain]
      simp only [Bool.false_eq_true, iff_false]
      intro hrepr
      rw [hrepr] at hplus
      exact hplus List.mem_cons_self
    · rename_i hplus
      obtain ⟨hne, hds, rfl⟩ := natural?_eq_some_iff.mp hn
      rw [toDigits_value_eq_iff hne hds]
      unfold plain
      split <;> simp_all

end Turnstile.Decimal
