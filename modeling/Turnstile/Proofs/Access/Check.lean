import Turnstile.Access.Grant
import Turnstile.Proofs.Access.Extraction
import Turnstile.Proofs.Store.Credential

/-! The access check. What is granted is the key with the credential that stands on the first place
of a request, if that key is enabled and the place is trusted for it. Later places do not count,
whatever they hold, and all other requests are refused alike, save for those that hold no credential
at all. -/

namespace Turnstile

/-- The key may be called with a credential that was found on that place. -/
structure ApiKey.Accepts (k : ApiKey) (found : Extracted) : Prop where
  credential : k.credential = found.value
  enabled : k.enabled = true
  trusted : found.source.isStrict = true ∨ k.compatibilityMode = true

theorem ApiKey.trusts_iff {k : ApiKey} {source : Source} :
    k.trusts source = true ↔ source.isStrict = true ∨ k.compatibilityMode = true :=
  Bool.or_eq_true_iff

theorem Source.eq_of_isStrict {source : Source} (h : source.isStrict = true) :
    source = .authorization ∨ source = .apiKeyHeader := by
  cases source with
  | authorization => exact .inl rfl
  | apiKeyHeader => exact .inr rfl
  | googleHeader | queryKey | queryToken => cases h

/-- Owner and label are told where they are set. -/
theorem Grant.mem_metadata_iff {g : Grant} {name value : String} :
    (name, value) ∈ g.metadata ↔
      value ≠ "" ∧ (name = "user_id" ∧ value = g.key.userId ∨
        name = "label" ∧ value = g.key.label) := by
  simp only [metadata, List.mem_filter, List.mem_cons, Prod.mk.injEq, List.not_mem_nil, or_false]
  rw [and_comm, or_comm]
  simp

namespace Store

variable {s : Store} {c : Carrier} {found : Extracted} {key : ApiKey} {g : Grant}

theorem checkAccess_of_extract (h : c.extract = some found) :
    s.checkAccess c =
      match s.keyWithCredential? found.value with
      | none => .error .invalidCredential
      | some key =>
        if key.enabled && key.trusts found.source then .ok ⟨key, found.source⟩
        else .error .invalidCredential := by
  obtain ⟨htrim, hne⟩ := Carrier.trimmed_of_extract h
  cases hkey : s.keyWithCredential? found.value with
  | none => simp only [checkAccess, h, findKey?_of_trimmed htrim hne, hkey]
  | some key => simp only [checkAccess, h, findKey?_of_trimmed htrim hne, hkey]

theorem checkAccess_eq_noCredentials_iff :
    s.checkAccess c = .error .noCredentials ↔ c.extract = none := by
  constructor
  · intro h
    cases hextract : c.extract with
    | none => rfl
    | some found =>
      rw [checkAccess_of_extract hextract] at h
      split at h
      · cases h
      · split at h <;> cases h
  · intro h
    rw [checkAccess, h]

/-- A granted key is a stored one that accepts what was found. -/
theorem accepts_of_checkAccess (h : s.checkAccess c = .ok g) :
    c.extract = some ⟨g.key.credential, g.source⟩ ∧ g.key ∈ s.apiKeys ∧
      g.key.Accepts ⟨g.key.credential, g.source⟩ := by
  cases hextract : c.extract with
  | none =>
    rw [checkAccess_eq_noCredentials_iff.mpr hextract] at h
    cases h
  | some found =>
    rw [checkAccess_of_extract hextract] at h
    split at h
    · cases h
    · rename_i key hkey
      split at h
      · rename_i hpasses
        cases h
        obtain ⟨hmem, hcredential⟩ := credential_of_keyWithCredential? hkey
        obtain ⟨henabled, htrusted⟩ := Bool.and_eq_true_iff.mp hpasses
        refine ⟨?_, hmem, rfl, henabled, ApiKey.trusts_iff.mp htrusted⟩
        rw [hcredential]
      · cases h

/-- A granted key is admitted by its own credential. -/
theorem findKey?_of_checkAccess (h : s.checkAccess c = .ok g) :
    s.findKey? g.principal = some g.key := by
  obtain ⟨hextract, -, -⟩ := accepts_of_checkAccess h
  obtain ⟨key, source⟩ := g
  simp only [checkAccess, hextract] at h
  split at h
  · cases h
  · rename_i found hfound
    split at h
    · cases h
      exact hfound
    · cases h

theorem checkAccess_of_accepts (hdistinct : s.DistinctCredentials)
    (hextract : c.extract = some found) (hmem : key ∈ s.apiKeys) (haccepts : key.Accepts found) :
    s.checkAccess c = .ok ⟨key, found.source⟩ := by
  have hkey := (keyWithCredential?_eq_some_iff hdistinct).mpr ⟨hmem, haccepts.credential⟩
  have hpasses : (key.enabled && key.trusts found.source) = true :=
    Bool.and_eq_true_iff.mpr ⟨haccepts.enabled, ApiKey.trusts_iff.mpr haccepts.trusted⟩
  simp only [checkAccess_of_extract hextract, hkey, hpasses, if_true]

theorem checkAccess_of_not_accepts (hextract : c.extract = some found)
    (h : ∀ k ∈ s.apiKeys, ¬ k.Accepts found) : s.checkAccess c = .error .invalidCredential := by
  cases hcheck : s.checkAccess c with
  | ok g =>
    obtain ⟨hfound, hmem, haccepts⟩ := accepts_of_checkAccess hcheck
    rw [hextract, Option.some.injEq] at hfound
    exact absurd (hfound ▸ haccepts) (h g.key hmem)
  | error e =>
    cases e with
    | noCredentials =>
      rw [checkAccess_eq_noCredentials_iff, hextract] at hcheck
      cases hcheck
    | invalidCredential => rfl

/-- The check grants exactly the keys that accept what was found, and tells apart from a wrong
credential only that there is none. -/
theorem checkAccess_exact (s : Store) (c : Carrier) (hdistinct : s.DistinctCredentials) :
    (s.checkAccess c = .error .noCredentials ↔ c.extract = none) ∧
      (∀ key source, s.checkAccess c = .ok ⟨key, source⟩ ↔
        ∃ value, c.extract = some ⟨value, source⟩ ∧ key ∈ s.apiKeys ∧ key.credential = value ∧
          key.enabled = true ∧ (source.isStrict = true ∨ key.compatibilityMode = true)) ∧
      (s.checkAccess c = .error .invalidCredential ↔
        ∃ found, c.extract = some found ∧ ∀ key ∈ s.apiKeys, ¬ key.Accepts found) ∧
      (∀ g : Grant, s.checkAccess c = .ok g →
        (∀ name value, (name, value) ∈ g.metadata ↔ value ≠ "" ∧
          (name = "user_id" ∧ value = g.key.userId ∨ name = "label" ∧ value = g.key.label)) ∧
        (g.key.compatibilityMode = false →
          g.source = .authorization ∨ g.source = .apiKeyHeader)) ∧
      ∀ found others, c.presented = found :: others →
        (∀ key ∈ s.apiKeys, ¬ key.Accepts found) →
          s.checkAccess c = .error .invalidCredential := by
  refine ⟨checkAccess_eq_noCredentials_iff, ?_, ⟨?_, ?_⟩, ?_, ?_⟩
  · intro key source
    constructor
    · intro h
      obtain ⟨hextract, hmem, haccepts⟩ := accepts_of_checkAccess h
      exact ⟨key.credential, hextract, hmem, rfl, haccepts.enabled, haccepts.trusted⟩
    · rintro ⟨value, hextract, hmem, hcredential, henabled, htrusted⟩
      exact checkAccess_of_accepts hdistinct hextract hmem ⟨hcredential, henabled, htrusted⟩
  · intro h
    cases hextract : c.extract with
    | none =>
      rw [checkAccess_eq_noCredentials_iff.mpr hextract] at h
      cases h
    | some found =>
      refine ⟨found, rfl, ?_⟩
      intro key hmem haccepts
      rw [checkAccess_of_accepts hdistinct hextract hmem haccepts] at h
      cases h
  · rintro ⟨found, hextract, hnone⟩
    exact checkAccess_of_not_accepts hextract hnone
  · intro g h
    refine ⟨fun _ _ => Grant.mem_metadata_iff, ?_⟩
    intro hcompatibility
    obtain ⟨-, -, -, -, hstrict | hopted⟩ := accepts_of_checkAccess h
    · exact Source.eq_of_isStrict hstrict
    · rw [hopted] at hcompatibility
      cases hcompatibility
  · intro found others hfirst hnone
    have hextract : c.extract = some found := by
      rw [Carrier.extract_eq_head?, hfirst, List.head?_cons]
    exact checkAccess_of_not_accepts hextract hnone

/-- The first credential is on a place that is not trusted for its key, the second one would do. -/
def mixedCarrier : Carrier where
  header name := if name = "X-Goog-Api-Key" then some " tk_door " else none
  query name := if name = "key" then some "tk_gate" else none

def mixedStore : Store :=
  stocked [.fresh "tk_door" "" .epoch,
    { ApiKey.fresh "tk_gate" "" .epoch with compatibilityMode := true }]

theorem checkAccess_exact_mixed :
    mixedStore.DistinctCredentials ∧
      mixedStore.checkAccess mixedCarrier = .error .invalidCredential := by
  have hdistinct : mixedStore.DistinctCredentials := by decide
  have hpresented : mixedCarrier.presented =
      [⟨"tk_door", .googleHeader⟩, ⟨"tk_gate", .queryKey⟩] := by
    decide +kernel
  obtain ⟨-, -, -, -, hfirst⟩ := checkAccess_exact mixedStore mixedCarrier hdistinct
  refine ⟨hdistinct, hfirst _ _ hpresented ?_⟩
  intro key hmem haccepts
  simp only [mixedStore, stocked, apiKeys, List.mem_cons, List.not_mem_nil, or_false] at hmem
  rcases hmem with rfl | rfl
  · obtain ⟨-, -, hstrict | hopted⟩ := haccepts
    · cases hstrict
    · cases hopted
  · exact absurd haccepts.credential (by decide)

end Store
end Turnstile
