import Turnstile.Proofs.Access.Check
import Turnstile.Proofs.Gate.Usage
import Turnstile.Proofs.Store.Holder

/-! The key that is granted and the key that is admitted. A request waits between its access check
and its admission, and what it waits with is the credential of the key it was granted. It is
admitted on the key that has this credential then: on the granted one unless the credential was
withdrawn from it meanwhile, and in a mode that trusts the place of the credential unless the key
was restricted as well. -/

namespace Turnstile.Gateway

/-- The turn asks for an operation that takes the credential from the key. -/
def withdraws (k credential : String) (g : Gateway) (turn : Turn) : Bool :=
  (g.call? turn).any fun call => call.2.withdraws k credential g.world.store

/-- The turn asks for an operation that stores the key without compatibility mode. -/
def restricts (k : String) (g : Gateway) (turn : Turn) : Bool :=
  (g.call? turn).any fun call => call.2.restricts k g.world.store

def withdrawnIn (service : Service) (k credential : String) (g : Gateway) (stretch : List Turn) :
    Nat :=
  Run.tally (step service) (withdraws k credential) g stretch

def restrictedIn (service : Service) (k : String) (g : Gateway) (stretch : List Turn) : Nat :=
  Run.tally (step service) (restricts k) g stretch

variable {service : Service} {w : World} {g : Gateway} {i j : Nat} {grant : Grant} {key : ApiKey}
  {k credential : String} {lenient : Bool} {past stretch : List Turn} {turn : Turn}

/-! ## Where a request was checked -/

/-- Nothing but a check makes a request wait for its admission. -/
theorem checked?_set {v : Visit} (hv : v.checked? = none)
    (h : checked? ⟨w, g.visits.set j v⟩ i = some grant) : g.checked? i = some grant := by
  unfold checked? at h ⊢
  rw [List.getElem?_set] at h
  by_cases hji : j = i
  · rw [if_pos hji] at h
    split at h
    · rw [Option.bind_some, hv] at h
      cases h
    · cases h
  · rwa [if_neg hji] at h

theorem checked?_step (h : (g.step service turn).checked? i = some grant) :
    g.checked? i = some grant ∨
      ∃ r, turn = .arrive r ∧ g.visits.length = i ∧
        g.world.store.checkAccess r.carrier = .ok grant := by
  cases turn with
  | arrive r =>
    simp only [step, checked?] at h
    rw [List.getElem?_append] at h
    split at h
    · exact .inl h
    · obtain ⟨v, hv, hgrant⟩ := Option.bind_eq_some_iff.mp h
      rw [List.getElem?_singleton] at hv
      split at hv
      · rename_i hi hplace
        cases hv
        cases hcheck : g.world.store.checkAccess r.carrier with
        | error e =>
          rw [hcheck] at hgrant
          cases hgrant
        | ok granted =>
          rw [hcheck] at hgrant
          cases hgrant
          exact .inr ⟨r, rfl, by omega, hcheck⟩
      · cases hv
  | enter j =>
    simp only [step] at h
    split at h
    · rename_i granted hj
      refine .inl (checked?_set ?_ h)
      cases (g.world.store.beginRequest granted.principal).1 <;> rfl
    · exact .inl h
  | finish j response draw =>
    simp only [step] at h
    split at h
    · exact .inl (checked?_set rfl h)
    · exact .inl h
  | cancel j =>
    simp only [step] at h
    split at h
    · exact .inl (checked?_set rfl h)
    · exact .inl h
  | other op => exact .inl h

/-- A request that waits was granted its key when it arrived. -/
theorem arrival_of_checked? (h : (after service w past).checked? i = some grant) :
    ∃ before r between, past = before ++ .arrive r :: between ∧
      (after service w before).visits.length = i ∧
      (after service w before).world.store.checkAccess r.carrier = .ok grant := by
  induction past using List.reverseRecOn with
  | nil => cases h
  | append_singleton past turn ih =>
    rw [after_concat] at h
    rcases checked?_step h with hbefore | ⟨r, rfl, hplace, hcheck⟩
    · obtain ⟨before, r, between, rfl, hplace, hcheck⟩ := ih hbefore
      exact ⟨before, r, between ++ [turn], by simp, hplace, hcheck⟩
    · exact ⟨past, r, [], rfl, hplace, hcheck⟩

/-! ## What the credential leads to -/

theorem leads_step (service : Service) (h : g.world.store.Leads credential k lenient)
    (hkeep : withdraws k credential g turn = false) :
    (g.step service turn).world.store.Leads credential k (lenient && !restricts k g turn) := by
  unfold withdraws at hkeep
  unfold restricts
  rw [store_step]
  cases hcall : g.call? turn with
  | none => exact h.weaken _
  | some call =>
    rw [hcall] at hkeep
    exact h.apply hkeep

theorem leads_stretch (h : g.world.store.Leads credential k lenient)
    (hkeep : withdrawnIn service k credential g stretch = 0) :
    (Run.after (step service) g stretch).world.store.Leads credential k
      (lenient && restrictedIn service k g stretch == 0) := by
  induction stretch using List.reverseRecOn with
  | nil => exact h.weaken _
  | append_singleton stretch turn ih =>
    have hwithdrawn : withdrawnIn service k credential g (stretch ++ [turn]) =
        withdrawnIn service k credential g stretch +
          (withdraws k credential (Run.after (step service) g stretch) turn).toNat :=
      Run.tally_concat _ g stretch turn
    have hrestricted : restrictedIn service k g (stretch ++ [turn]) =
        restrictedIn service k g stretch +
          (restricts k (Run.after (step service) g stretch) turn).toNat :=
      Run.tally_concat _ g stretch turn
    rw [hwithdrawn, Nat.add_eq_zero_iff, Bool.toNat_eq_zero] at hkeep
    have hleads := leads_step service (ih hkeep.1) hkeep.2
    rw [Run.after_concat, hrestricted]
    have hmode : (lenient && restrictedIn service k g stretch +
          (restricts k (Run.after (step service) g stretch) turn).toNat == 0) =
        ((lenient && restrictedIn service k g stretch == 0) &&
          !restricts k (Run.after (step service) g stretch) turn) := by
      cases restricts k (Run.after (step service) g stretch) turn <;> simp
    rw [hmode]
    exact hleads

/-! ## Admission -/

/-- A granted key is what its credential leads to. -/
theorem leads_of_checkAccess {s : Store} {c : Carrier} (h : s.checkAccess c = .ok grant) :
    Text.trim grant.principal = grant.principal ∧ grant.principal ≠ "" ∧
      s.Leads grant.principal grant.key.id grant.key.compatibilityMode := by
  obtain ⟨hextract, -, -⟩ := Store.accepts_of_checkAccess h
  obtain ⟨htrim, hne⟩ := Carrier.trimmed_of_extract hextract
  refine ⟨htrim, hne, grant.key, ?_, rfl, fun hmode => hmode⟩
  exact (Store.findKey?_of_trimmed htrim hne).symm.trans (Store.findKey?_of_checkAccess h)

theorem findKey?_of_beginRequest {s : Store} (h : (s.beginRequest credential).1 = .ok key) :
    s.findKey? credential = some key ∧ key.enabled = true ∧ key.exhausted = false := by
  rcases s.beginRequest_cases credential with
    ⟨e, he⟩ | ⟨found, hfound, henabled, hquota, ⟨-, he⟩ | ⟨-, -, he⟩⟩
  · rw [he] at h
    cases h
  · rw [he] at h
    cases h
    exact ⟨hfound, henabled, hquota⟩
  · rw [he] at h
    cases h
    exact ⟨hfound, henabled, hquota⟩

theorem inside?_enter (hchecked : (after service w past).checked? i = some grant)
    (hbegin : ((after service w past).world.store.beginRequest grant.principal).1 = .ok key) :
    (after service w (past ++ [.enter i])).inside? i = some ⟨grant, key.id⟩ := by
  obtain ⟨hi, -⟩ := List.getElem?_eq_some_iff.mp (visits_of_checked? hchecked)
  rw [after_concat]
  simp only [step, hchecked, hbegin, inside?, List.getElem?_set, hi, if_true]
  rfl

/-- A request that is admitted goes in on an enabled key with quota left that now has the credential
of the key it was granted when it arrived. The two have one id unless the credential was withdrawn
in between, and the place of the credential is trusted for the admitted key unless it was also
restricted or the place is a strict one. -/
theorem admitted_of_granted (hchecked : (after service w past).checked? i = some grant)
    (hbegin : ((after service w past).world.store.beginRequest grant.principal).1 = .ok key) :
    (after service w (past ++ [.enter i])).inside? i = some ⟨grant, key.id⟩ ∧
      (key ∈ (after service w past).world.store.apiKeys ∧
        key.credential = grant.key.credential ∧ key.enabled = true ∧ key.exhausted = false) ∧
      ∃ before r between, past = before ++ .arrive r :: between ∧
        (after service w before).visits.length = i ∧
        (after service w before).world.store.checkAccess r.carrier = .ok grant ∧
        (withdrawnIn service grant.key.id grant.key.credential
            (after service w (before ++ [.arrive r])) between = 0 →
          key.id = grant.key.id ∧
            (restrictedIn service grant.key.id (after service w (before ++ [.arrive r]))
                between = 0 →
              key.trusts grant.source = true)) ∧
        (grant.source.isStrict = true → key.trusts grant.source = true) := by
  obtain ⟨before, r, between, rfl, hplace, hcheck⟩ := arrival_of_checked? hchecked
  obtain ⟨htrim, hne, hleads⟩ := leads_of_checkAccess hcheck
  obtain ⟨hfound, henabled, hquota⟩ := findKey?_of_beginRequest hbegin
  rw [Store.findKey?_of_trimmed htrim hne] at hfound
  obtain ⟨hmem, hcredential⟩ := Store.credential_of_keyWithCredential? hfound
  refine ⟨inside?_enter hchecked hbegin, ⟨hmem, hcredential, henabled, hquota⟩, before, r, between,
    rfl, hplace, hcheck, ?_, fun hstrict => ApiKey.trusts_iff.mpr (.inl hstrict)⟩
  intro hkeep
  have harrived : (after service w (before ++ [.arrive r])).world.store =
      (after service w before).world.store := by
    rw [after_concat]
    rfl
  have hafter : after service w (before ++ .arrive r :: between) =
      Run.after (step service) (after service w (before ++ [.arrive r])) between := by
    rw [List.append_cons]
    exact Run.after_append
  rw [← harrived] at hleads
  obtain ⟨holder, hholder, hid, hmode⟩ := leads_stretch hleads hkeep
  rw [← hafter, hfound, Option.some.injEq] at hholder
  subst hholder
  refine ⟨hid, ?_⟩
  intro hopen
  rw [hopen] at hmode
  -- The place was trusted for the granted key, by itself or by the mode of the key.
  obtain ⟨-, -, -, -, htrusted⟩ := Store.accepts_of_checkAccess hcheck
  refine ApiKey.trusts_iff.mpr (htrusted.imp_right fun hcompatible => hmode ?_)
  rw [hcompatible]
  rfl

/-! ## Requests that wait -/

/-- A key in compatibility mode and one that is not. -/
def openDoor : World :=
  ⟨.stocked [{ doorKey with compatibilityMode := true },
    { doorKey with id := "key_2", credential := "tk_side" }], .empty⟩

def byQuery : Turn := .arrive ⟨"GET", ⟨"/v1/access", some "key=tk_door"⟩, [], []⟩

def grantByQuery : Grant := ⟨{ doorKey with compatibilityMode := true }, .queryKey⟩

/-- The other key does not get the credential and is deleted with a request on it open, and the key
itself changes but for its credential and its mode. -/
def keptWaiting : List Turn :=
  [byQuery, .other (.updateKey "key_2" (KeyEdit.applyAll [.credential "tk_door"])),
    .other (.updateKey "key_1" (KeyEdit.applyAll [.label "gate", .totalLimit 9])),
    .arrive (presenting "tk_side"), .enter 1, .other (.deleteKey "key_2")]

def keyAfterWait : ApiKey :=
  { doorKey with compatibilityMode := true, label := "gate", totalLimit := 9 }

theorem admitted_of_granted_keptWaiting :
    (after doorService openDoor keptWaiting).checked? 0 = some grantByQuery ∧
      ((after doorService openDoor keptWaiting).world.store.beginRequest
        grantByQuery.principal).1 = .ok keyAfterWait ∧
      keyAfterWait.id = grantByQuery.key.id ∧
      keyAfterWait.trusts grantByQuery.source = true := by
  have hchecked : (after doorService openDoor keptWaiting).checked? 0 = some grantByQuery := by
    decide +kernel
  have hbegin : ((after doorService openDoor keptWaiting).world.store.beginRequest
      grantByQuery.principal).1 = .ok keyAfterWait := by
    decide +kernel
  have hfirst : ∀ before, before <+: keptWaiting →
      (after doorService openDoor before).visits.length = 0 → before.length = 0 :=
    Run.forall_prefix_iff.mp (by decide +kernel)
  obtain ⟨-, -, before, r, between, hrun, hplace, -, hkeep, -⟩ :=
    admitted_of_granted hchecked hbegin
  have hbefore : before = [] :=
    List.length_eq_zero_iff.mp (hfirst before (hrun ▸ List.prefix_append before _) hplace)
  subst hbefore
  obtain ⟨harrive, rfl⟩ := List.cons.inj hrun
  rw [← harrive, List.nil_append] at hkeep
  obtain ⟨hid, htrusts⟩ := hkeep (by decide +kernel)
  exact ⟨hchecked, hbegin, hid, htrusts (by decide +kernel)⟩

/-- The credential goes from the first key to the second one while a request waits with it. -/
def exchangedCredential : List Turn :=
  [byQuery, .other (.updateKey "key_1" (KeyEdit.applyAll [.credential "tk_old"])),
    .other (.updateKey "key_2" (KeyEdit.applyAll [.credential "tk_door"]))]

/-- The key leaves compatibility mode while a request waits that needs it. -/
def strictMeanwhile : List Turn :=
  [byQuery, .other (.updateKey "key_1" (KeyEdit.applyAll [.compatibilityMode false]))]

/-- The first request is admitted on another key than it was granted, the second one on a key that
does not trust the place of its credential. -/
theorem admitted_of_exchanged :
    (after doorService openDoor exchangedCredential).checked? 0 = some grantByQuery ∧
      (after doorService openDoor (exchangedCredential ++ [.enter 0])).inside? 0 =
        some ⟨grantByQuery, "key_2"⟩ ∧
      grantByQuery.key.id = "key_1" ∧
      (after doorService openDoor strictMeanwhile).checked? 0 = some grantByQuery ∧
      ((after doorService openDoor strictMeanwhile).world.store.beginRequest
        grantByQuery.principal).1 = .ok doorKey ∧
      doorKey.trusts grantByQuery.source = false := by
  decide +kernel

end Turnstile.Gateway
