import Turnstile.Record.Rule
import Turnstile.Proofs.Text.Blank
import Mathlib.Data.Char
import Mathlib.Data.List.Basic
import Mathlib.Tactic.SplitIfs

/-! The check of a credential, with blanks around it and without. It tells one answer from another
by its message, and a refused character by the form that the message shows of it. -/

namespace Turnstile

namespace Text

theorem digitChar_inj {m n : Nat} (hm : m < 16) (hn : n < 16) (h : m.digitChar = n.digitChar) :
    m = n := by
  have hall : ∀ m < 16, ∀ n < 16, m.digitChar = n.digitChar → m = n := by decide
  exact hall m hm n hn h

/-- A number is known by its hexadecimal digits. -/
theorem toDigits_inj {m n : Nat} (h : Nat.toDigits 16 m = Nat.toDigits 16 n) : m = n := by
  induction m using Nat.strongRecOn generalizing n with
  | ind m ih =>
    have hsize : m < 16 ^ 1 ↔ n < 16 ^ 1 := by
      rw [← Nat.length_toDigits_le_iff (by omega) (by omega), h,
        Nat.length_toDigits_le_iff (by omega) (by omega)]
    by_cases hm : m < 16
    · have hn : n < 16 := hsize.mp hm
      rw [Nat.toDigits_of_lt_base hm, Nat.toDigits_of_lt_base hn] at h
      exact digitChar_inj hm hn (List.cons.inj h).1
    · have hn : ¬ n < 16 := mt hsize.mpr hm
      rw [Nat.toDigits_of_base_le (n := m) (by omega) (by omega),
        Nat.toDigits_of_base_le (n := n) (by omega) (by omega)] at h
      obtain ⟨hhigh, hlow⟩ := List.append_inj' h rfl
      have hquotient : m / 16 = n / 16 := ih (m / 16) (by omega) hhigh
      have hrest : m % 16 = n % 16 := digitChar_inj (Nat.mod_lt m (by omega))
        (Nat.mod_lt n (by omega)) (List.cons.inj hlow).1
      omega

theorem refusedForm_inj {c d : Char} (h : refusedForm c = refusedForm d) : c = d := by
  have hshown := congrArg String.toList h
  simp only [refusedForm, beq_iff_eq] at hshown
  split_ifs at hshown
  -- the short forms differ from each other and from every numbered one
  all_goals try (simp_all; done)
  simp only [String.toList_append, List.append_left_inj, List.append_right_inj, lowerHex,
    String.toList_ofList] at hshown
  exact Char.toNat_inj.mp (toDigits_inj hshown)

end Text

namespace Refusal

theorem message_credentialCharacter (c : Char) : (credentialCharacter c).message =
    "API key contains invalid character: " ++ Text.refusedForm c ++
      ". Whitespace and control characters are not allowed" := rfl

theorem message_credentialTooLong : credentialTooLong.message =
    "API key exceeds maximum length of " ++ credentialBound.repr ++ " characters" := rfl

theorem message_credentialTooLong_ne (c : Char) :
    credentialTooLong.message ≠ (credentialCharacter c).message := by
  intro h
  have hletter := congrArg (fun s => s.toList[8]?) h
  simp only [message_credentialCharacter, message_credentialTooLong, String.append_assoc,
    String.toList_append] at hletter
  rw [List.getElem?_append_left (by decide), List.getElem?_append_left (by decide)] at hletter
  exact absurd hletter (by decide)

theorem message_credentialCharacter_inj {c d : Char}
    (h : (credentialCharacter c).message = (credentialCharacter d).message) : c = d := by
  have hshown := congrArg String.toList h
  simp only [message_credentialCharacter, String.toList_append, List.append_left_inj,
    List.append_right_inj] at hshown
  exact Text.refusedForm_inj (String.toList_inj.mp hshown)

end Refusal

/-- The first character that no credential may have. -/
def firstUnfit (s : String) : Option Char :=
  s.toList.find? fun c => Text.isBlank c || Text.isControl c

variable {s t : String} {e f : Refusal}

theorem checkCredential_of_ne_empty (h : s ≠ "") : checkCredential s =
    if credentialBound < s.length then .error .credentialTooLong
    else match firstUnfit s with
      | some c => .error (.credentialCharacter c)
      | none => .ok () := by
  have hsome : s.toList.isEmpty = false := by simpa using h
  simp only [checkCredential, hsome, String.length_toList, Bool.false_eq_true, if_false]
  rfl

theorem refusal_of_checkCredential (hs : s ≠ "") (h : checkCredential s = .error e) :
    e = .credentialTooLong ∨ ∃ c, e = .credentialCharacter c := by
  rw [checkCredential_of_ne_empty hs] at h
  split at h
  · exact .inl (Except.error.inj h).symm
  · split at h
    · rename_i c _
      exact .inr ⟨c, (Except.error.inj h).symm⟩
    · cases h

/-- Two refusals of credentials that are not empty differ in their messages. -/
theorem message_inj_of_checkCredential (hs : s ≠ "") (ht : t ≠ "")
    (he : checkCredential s = .error e) (hf : checkCredential t = .error f) :
    e.message = f.message ↔ e = f := by
  refine ⟨fun h => ?_, fun h => by rw [h]⟩
  rcases refusal_of_checkCredential hs he with rfl | ⟨c, rfl⟩ <;>
    rcases refusal_of_checkCredential ht hf with rfl | ⟨d, rfl⟩
  · rfl
  · exact absurd h (Refusal.message_credentialTooLong_ne d)
  · exact absurd h.symm (Refusal.message_credentialTooLong_ne c)
  · rw [Refusal.message_credentialCharacter_inj h]

/-- Blanks around a credential make no difference to the check where it is too long without them,
or not too long with them and the same character stands out. -/
theorem checkCredential_trim_iff (h : Text.trim s ≠ "") :
    checkCredential s = checkCredential (Text.trim s) ↔
      credentialBound < (Text.trim s).length ∨
        s.length ≤ credentialBound ∧ firstUnfit s = firstUnfit (Text.trim s) := by
  have hs : s ≠ "" := by
    rintro rfl
    exact h (by decide)
  have hle := Text.length_trim_le s
  rw [checkCredential_of_ne_empty hs, checkCredential_of_ne_empty h]
  by_cases hlong : credentialBound < s.length
  · by_cases hcut : credentialBound < (Text.trim s).length
    · simp [hlong, hcut]
    · have hneither : ¬ s.length ≤ credentialBound := by omega
      cases hfirst : firstUnfit (Text.trim s) <;> simp [hlong, hcut, hneither]
  · have hcut : ¬ credentialBound < (Text.trim s).length := by omega
    have hshort : s.length ≤ credentialBound := by omega
    cases hfirst : firstUnfit s <;> cases hsecond : firstUnfit (Text.trim s) <;>
      simp [hlong, hcut, hshort]

end Turnstile
