import Turnstile.Proofs.Store.Credential

/-! The key that a presented text leads to. Of all keys it is the first one whose credential is the
text without the blanks around it, and where no two keys share a credential it is the only one. A
look-up, an admission and a completion lead to the same key: it is found, the admission goes by its
limits and takes a slot of its own, and the completion is written back to its position. -/

namespace Turnstile.Store

variable {s : Store} {credential presented : String} {key other : ApiKey} {i j : Nat}

/-! ## Positions -/

/-- The position of the first key with the credential. -/
def indexWithCredential? (s : Store) (credential : String) : Option Nat :=
  s.apiKeys.findIdx? fun k => sameCredential k.credential credential

/-- The key that is looked up is the one at the position. -/
theorem keyWithCredential?_eq_bind (s : Store) (credential : String) :
    s.keyWithCredential? credential =
      (s.indexWithCredential? credential).bind fun i => s.apiKeys[i]? :=
  List.find?_eq_bind_findIdx?_getElem?

theorem indexWithCredential?_eq_none_iff :
    s.indexWithCredential? credential = none ↔ ∀ k ∈ s.apiKeys, k.credential ≠ credential := by
  simp only [indexWithCredential?, List.findIdx?_eq_none_iff, Bool.eq_false_iff,
    sameCredential_iff, Ne]

theorem indexWithCredential?_eq_some_iff :
    s.indexWithCredential? credential = some i ↔
      (∃ key, s.apiKeys[i]? = some key ∧ key.credential = credential) ∧
        ∀ j < i, ∀ key, s.apiKeys[j]? = some key → key.credential ≠ credential := by
  rw [indexWithCredential?, List.findIdx?_eq_some_iff_getElem]
  simp only [sameCredential_iff, List.getElem?_eq_some_iff]
  constructor
  · rintro ⟨hi, hcredential, hbefore⟩
    refine ⟨⟨_, ⟨hi, rfl⟩, hcredential⟩, ?_⟩
    rintro j hj key ⟨-, rfl⟩
    exact hbefore j hj
  · rintro ⟨⟨key, ⟨hi, rfl⟩, hcredential⟩, hbefore⟩
    exact ⟨hi, hcredential, fun j hj => hbefore j hj _ ⟨hj.trans hi, rfl⟩⟩

/-- Where no two keys share a credential, it stands at one position. -/
theorem DistinctCredentials.position (h : s.DistinctCredentials) (hi : s.apiKeys[i]? = some key)
    (hj : s.apiKeys[j]? = some other) (hsame : other.credential = key.credential) : j = i := by
  obtain ⟨hbound, -⟩ := List.getElem?_eq_some_iff.mp hj
  have hmapped : (s.apiKeys.map ApiKey.credential)[j]? =
      (s.apiKeys.map ApiKey.credential)[i]? := by
    rw [List.getElem?_map, List.getElem?_map, hi, hj, Option.map_some, Option.map_some, hsame]
  exact (List.getElem?_inj (by rwa [List.length_map]) h).mp hmapped

theorem DistinctCredentials.indexWithCredential? (h : s.DistinctCredentials)
    (hi : s.apiKeys[i]? = some key) :
    s.indexWithCredential? key.credential = some i := by
  refine indexWithCredential?_eq_some_iff.mpr ⟨⟨key, hi, rfl⟩, ?_⟩
  intro j hj other hother hsame
  exact absurd (h.position hi hother hsame) hj.ne

/-! ## Completions at a position -/

/-- A completion on the key at the position. -/
def completion (s : Store) (i : Nat) (key : ApiKey) (counted : Bool) : Outcome ApiKey :=
  let after := if counted then key.recordUse else key
  let inFlight :=
    if key.hasConcurrencyLimit then s.inFlight.giveBack key.id else s.inFlight
  (.ok after, { s.withApiKeys (s.apiKeys.set i after) with inFlight })

theorem completeOn_eq_completion {test : ApiKey → Bool} (h : s.apiKeys.findIdx? test = some i)
    (key : ApiKey) (counted : Bool) :
    s.completeOn test key counted = s.completion i key counted := by
  simp only [completeOn, completion, replaceFirst_eq_set _ h]

/-! ## Presented texts -/

/-- The text leads to the key at this position and to no other one. -/
structure ResolvesTo (s : Store) (presented : String) (i : Nat) (key : ApiKey) : Prop where
  stored : s.apiKeys[i]? = some key
  sole : ∀ j other, s.apiKeys[j]? = some other → other.credential = Text.trim presented → j = i
  found : s.findKey? presented = some key
  begun : s.beginRequest presented = s.admission key
  ended : ∀ counted, s.endRequest presented counted = s.completion i key counted

/-- The text leads to no key, and a request with it changes nothing. -/
structure Unresolved (s : Store) (presented : String) : Prop where
  found : s.findKey? presented = none
  begun : s.beginRequest presented = (.error .keyNotFound, s)
  ended : ∀ counted, s.endRequest presented counted = (.error .keyNotFound, s)

theorem findKey?_eq_none_iff :
    s.findKey? presented = none ↔
      Text.trim presented = "" ∨ ∀ k ∈ s.apiKeys, k.credential ≠ Text.trim presented := by
  rw [findKey?_eq]
  split <;> simp [*, keyWithCredential?_eq_none_iff]

theorem unresolved_iff :
    s.Unresolved presented ↔
      Text.trim presented = "" ∨ ∀ k ∈ s.apiKeys, k.credential ≠ Text.trim presented := by
  rw [← findKey?_eq_none_iff]
  refine ⟨Unresolved.found, fun hnone => ⟨hnone, ?_, ?_⟩⟩
  · rw [beginRequest_eq, hnone]
  · intro counted
    rw [endRequest_eq, hnone]

theorem DistinctCredentials.resolvesTo_iff (h : s.DistinctCredentials) :
    s.ResolvesTo presented i key ↔
      Text.trim presented ≠ "" ∧ s.apiKeys[i]? = some key ∧
        key.credential = Text.trim presented := by
  constructor
  · intro hleads
    obtain ⟨hfilled, hfound⟩ := findKey?_eq_some_iff.mp hleads.found
    exact ⟨hfilled, hleads.stored, (credential_of_keyWithCredential? hfound).2⟩
  · rintro ⟨hfilled, hstored, hcredential⟩
    have hindex : s.indexWithCredential? (Text.trim presented) = some i := by
      rw [← hcredential]
      exact h.indexWithCredential? hstored
    have hfound : s.findKey? presented = some key := by
      rw [findKey?_eq, if_neg hfilled, keyWithCredential?_eq_bind, hindex, Option.bind_some,
        hstored]
    refine ⟨hstored, ?_, hfound, ?_, ?_⟩
    · intro j other hother hsame
      exact h.position hstored hother (hsame.trans hcredential.symm)
    · rw [beginRequest_eq, hfound]
    · intro counted
      rw [endRequest_eq, hfound]
      exact completeOn_eq_completion hindex key counted

/-- Two credentials compare as equal exactly if they are the same text. So the first key with a
credential is found wherever there is one, and where no two keys share a credential every text that
is presented, with any blanks around it, leads to the one key that has it or to none. -/
theorem resolution_exact :
    (∀ a b, sameCredential a b = true ↔ a = b) ∧
      (∀ (s : Store) (credential : String),
        (∀ i, s.indexWithCredential? credential = some i ↔
          (∃ key, s.apiKeys[i]? = some key ∧ key.credential = credential) ∧
            ∀ j < i, ∀ key, s.apiKeys[j]? = some key → key.credential ≠ credential) ∧
        (s.indexWithCredential? credential = none ↔
          ∀ k ∈ s.apiKeys, k.credential ≠ credential) ∧
        s.keyWithCredential? credential =
          (s.indexWithCredential? credential).bind fun i => s.apiKeys[i]?) ∧
      ∀ s : Store, s.DistinctCredentials → ∀ before presented after : String,
        Text.blank before = true → Text.blank after = true →
          (s.Unresolved (before ++ presented ++ after) ↔
            Text.trim presented = "" ∨ ∀ k ∈ s.apiKeys, k.credential ≠ Text.trim presented) ∧
          ∀ i key, s.ResolvesTo (before ++ presented ++ after) i key ↔
            Text.trim presented ≠ "" ∧ s.apiKeys[i]? = some key ∧
              key.credential = Text.trim presented := by
  refine ⟨fun a b => sameCredential_iff, ?_, ?_⟩
  · intro s credential
    exact ⟨fun i => indexWithCredential?_eq_some_iff, indexWithCredential?_eq_none_iff,
      s.keyWithCredential?_eq_bind credential⟩
  · intro s hdistinct before presented after hbefore hafter
    rw [← Text.trim_surrounded hbefore hafter presented]
    exact ⟨unresolved_iff, fun i key => hdistinct.resolvesTo_iff⟩

/-- A key with one slot, whose credential has an accented letter. -/
def accentKey : ApiKey :=
  { ApiKey.fresh "cl\u00e9" "accent" .epoch with id := "key_4", concurrencyLimit := 1 }

/-- Credentials that differ in their length, in one bit, and in the spelling of one letter. -/
def nearMisses : Store :=
  stocked [.fresh "tk_gate" "" .epoch, .fresh "tk_gates" "" .epoch, .fresh "tk_gatE" "" .epoch,
    accentKey, .fresh "cle\u0301" "" .epoch]

/-- One of them is found between blanks, and the beginning of one leads to none. -/
theorem resolution_exact_nearMisses :
    nearMisses.DistinctCredentials ∧ Text.blank "\u00a0\t" = true ∧ Text.blank "\u2003" = true ∧
      nearMisses.ResolvesTo ("\u00a0\t" ++ "cl\u00e9" ++ "\u2003") 3 accentKey ∧
      nearMisses.Unresolved ("\u00a0\t" ++ "tk_gat" ++ "\u2003") := by
  have hdistinct : nearMisses.DistinctCredentials := by decide +kernel
  have hbefore : Text.blank "\u00a0\t" = true := by decide
  have hafter : Text.blank "\u2003" = true := by decide
  obtain ⟨-, -, hpresented⟩ := resolution_exact
  refine ⟨hdistinct, hbefore, hafter, ?_, ?_⟩
  · rw [(hpresented nearMisses hdistinct _ _ _ hbefore hafter).2]
    exact ⟨by decide +kernel, rfl, by decide +kernel⟩
  · rw [(hpresented nearMisses hdistinct _ _ _ hbefore hafter).1]
    exact .inr (by decide +kernel)

end Turnstile.Store
