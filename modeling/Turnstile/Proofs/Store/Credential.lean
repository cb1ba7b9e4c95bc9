import Turnstile.Proofs.Store.Soundness
import Turnstile.Proofs.Text.Utf8
import Mathlib.Data.List.Forall2
import Mathlib.Data.List.Nodup

/-! Looking up keys by their credentials. Two credentials compare as equal exactly if they are the
same text, so where no two keys share one, a credential names the one key that has it. -/

namespace Turnstile

theorem Utf8.encode_inj {a b : String} : Utf8.encode a = Utf8.encode b ↔ a = b := by
  constructor
  · intro h
    have hread := congrArg Utf8.decode? h
    rwa [Utf8.encode, Utf8.encode, Utf8.decode?_encodeList, Utf8.decode?_encodeList,
      String.ofList_toList, String.ofList_toList, Option.some.injEq] at hread
  · rintro rfl
    rfl

/-- The differences that are gathered over all bytes are none exactly if no pair differs. -/
theorem foldl_differences_eq_zero_iff {pairs : List (UInt8 × UInt8)} {seen : UInt8} :
    pairs.foldl (fun acc p => acc ||| (p.1 ^^^ p.2)) seen = 0 ↔
      seen = 0 ∧ ∀ p ∈ pairs, p.1 = p.2 := by
  induction pairs generalizing seen with
  | nil => simp
  | cons p rest ih =>
    rw [List.foldl_cons, ih, UInt8.or_eq_zero_iff, UInt8.xor_eq_zero_iff, List.forall_mem_cons,
      and_assoc]

theorem sameCredential_iff {a b : String} : sameCredential a b = true ↔ a = b := by
  rw [← Utf8.encode_inj, ← congrFun (congrFun List.forall₂_eq_eq_eq (Utf8.encode a)) _,
    List.forall₂_iff_zip]
  simp only [sameCredential, Bool.and_eq_true, beq_iff_eq, foldl_differences_eq_zero_iff, true_and,
    Prod.forall]

namespace Store

variable {s : Store} {credential : String} {key : ApiKey}

/-- No two keys share a credential. -/
def DistinctCredentials (s : Store) : Prop := (s.apiKeys.map ApiKey.credential).Nodup

instance (s : Store) : Decidable s.DistinctCredentials := inferInstanceAs (Decidable (List.Nodup _))

theorem Sound.distinctCredentials (h : s.Sound) : s.DistinctCredentials := by
  rw [DistinctCredentials, List.Nodup, List.pairwise_map]
  exact h.records.apiKeys.apart.imp fun hapart => ne_of_beq_false hapart

theorem credential_of_find? {keys : List ApiKey}
    (h : keys.find? (fun k => sameCredential k.credential credential) = some key) :
    key.credential = credential := by
  have hsame : sameCredential key.credential credential = true := by
    simpa using List.find?_some h
  exact sameCredential_iff.mp hsame

theorem credential_of_keyWithCredential? (h : s.keyWithCredential? credential = some key) :
    key ∈ s.apiKeys ∧ key.credential = credential :=
  ⟨List.mem_of_find?_eq_some h, credential_of_find? h⟩

theorem keyWithCredential?_eq_none_iff :
    s.keyWithCredential? credential = none ↔ ∀ k ∈ s.apiKeys, k.credential ≠ credential := by
  simp only [keyWithCredential?, List.find?_eq_none, sameCredential_iff, Ne]

theorem keyWithCredential?_eq_some_iff (hdistinct : s.DistinctCredentials) :
    s.keyWithCredential? credential = some key ↔
      key ∈ s.apiKeys ∧ key.credential = credential := by
  refine ⟨credential_of_keyWithCredential?, ?_⟩
  rintro ⟨hmem, hcredential⟩
  cases hfound : s.keyWithCredential? credential with
  | none => exact absurd hcredential (keyWithCredential?_eq_none_iff.mp hfound key hmem)
  | some found =>
    obtain ⟨hfmem, hfcredential⟩ := credential_of_keyWithCredential? hfound
    have hsame : found = key :=
      List.inj_on_of_nodup_map hdistinct hfmem hmem (hfcredential.trans hcredential.symm)
    rw [hsame]

/-- A text that is trimmed and not empty is looked up as it stands. -/
theorem findKey?_of_trimmed (htrim : Text.trim credential = credential) (hne : credential ≠ "") :
    s.findKey? credential = s.keyWithCredential? credential := by
  rw [findKey?_eq, htrim, if_neg hne]

end Store
end Turnstile
