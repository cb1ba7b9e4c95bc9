import Turnstile.Proofs.Store.Credential
import Turnstile.Proofs.Store.Failure
import Turnstile.Proofs.Store.Soundness

/-! Who holds a credential. A look-up by credential leads to the same id for as long as nothing
takes the credential from the key with that id: no other key can be given a credential that is
held, and completions and resets change neither credentials nor ids. -/

namespace Turnstile

/-- The operation takes the credential from the key with this id: it deletes the key, stores it with
another credential or under another id, or reads other records. -/
def Operation.withdraws (k credential : String) (s : Store) : Operation → Bool
  | .load files now => (s.load files now).1.toOption.isSome
  | .upsertKey freshId now key =>
    (s.upsertKey freshId now key).1.toOption.any fun stored =>
      stored.id == k && stored.credential != credential
  | .updateKey id patch =>
    (s.updateKey id patch).1.toOption.any fun stored =>
      Text.trim id == k && (stored.id != k || stored.credential != credential)
  | .deleteKey id => (s.deleteKey id).1.toOption.isSome && Text.trim id == k
  | _ => false

/-- The operation stores the key with this id without compatibility mode. -/
def Operation.restricts (k : String) (s : Store) : Operation → Bool
  | .upsertKey freshId now key =>
    (s.upsertKey freshId now key).1.toOption.any fun stored =>
      stored.id == k && !stored.compatibilityMode
  | .updateKey id patch =>
    (s.updateKey id patch).1.toOption.any fun stored =>
      Text.trim id == k && !stored.compatibilityMode
  | _ => false

namespace Store

variable {s t : Store} {credential k : String} {lenient : Bool} {key found stored : ApiKey}

/-- The credential leads to a key with this id, and to one in compatibility mode if so asked. -/
def Leads (s : Store) (credential k : String) (lenient : Bool) : Prop :=
  ∃ key, s.keyWithCredential? credential = some key ∧ key.id = k ∧
    (lenient = true → key.compatibilityMode = true)

/-! ## Stored keys -/

/-- The item that is found first is found still, or the one that took the place of an item. -/
theorem find?_replaceFirst {α : Type} {p test : α → Bool} {l : List α} {a b c : α}
    (ha : l.find? p = some a) (hb : l.find? test = some b) (hself : b = a → p c = true) :
    (replaceFirst test c l).find? p = some a ∨
      (replaceFirst test c l).find? p = some c ∧ (b = a ∨ p b = false) := by
  obtain ⟨before, rest, rfl, hr⟩ := replaceFirst_eq_append c hb
  rw [List.find?_append] at ha
  rw [hr, List.find?_append]
  cases hbefore : before.find? p with
  | some first =>
    rw [hbefore] at ha
    exact .inl ha
  | none =>
    rw [hbefore, Option.none_or] at ha
    rw [Option.none_or]
    by_cases hpb : p b = true
    · rw [List.find?_cons_of_pos hpb, Option.some.injEq] at ha
      exact .inr ⟨List.find?_cons_of_pos (hself ha), .inl ha⟩
    · rw [List.find?_cons_of_neg hpb] at ha
      by_cases hpc : p c = true
      · exact .inr ⟨List.find?_cons_of_pos hpc, .inr (Bool.eq_false_iff.mpr hpb)⟩
      · rw [List.find?_cons_of_neg hpc]
        exact .inl ha

/-- The key is stored in the place of the first one with the id, and no key of another id has its
credential. -/
structure Replaces (s : Store) (id : String) (stored : ApiKey) (outcome : Outcome ApiKey) :
    Prop where
  exists_found : ∃ found, s.keyWithId? id = some found
  free : ∀ a ∈ s.apiKeys, a.id ≠ id → a.credential ≠ stored.credential
  eq : outcome = (.ok stored, s.withApiKeys (replaceFirst (·.id == id) stored s.apiKeys))

theorem updateKey_cases (s : Store) (id : String) (patch : ApiKey → ApiKey) :
    (∃ e, s.updateKey id patch = (.error e, s)) ∨
      ∃ stored, s.Replaces (Text.trim id) stored (s.updateKey id patch) := by
  unfold updateKey
  dsimp only
  split
  · exact .inl ⟨_, rfl⟩
  · rename_i found hfound
    split
    · exact .inl ⟨_, rfl⟩
    · split
      · exact .inl ⟨_, rfl⟩
      · rename_i hfree
        refine .inr ⟨patch found, ⟨found, hfound⟩, ?_, rfl⟩
        intro a ha hid
        simpa using forall_of_any_and hfree a ha (bne_iff_ne.mpr hid)

theorem upsertKey_cases (s : Store) (freshId : String) (now : Moment) (key : ApiKey) :
    (∃ e, s.upsertKey freshId now key = (.error e, s)) ∨
      (∃ stored, s.upsertKey freshId now key =
        (.ok stored, s.withApiKeys (s.apiKeys ++ [stored]))) ∨
      s.Replaces key.id key (s.upsertKey freshId now key) := by
  unfold upsertKey
  split
  · exact .inl ⟨_, rfl⟩
  · split
    · exact .inl ⟨_, rfl⟩
    · rename_i hfree
      split
      · exact .inr (.inl ⟨_, rfl⟩)
      · split
        · rename_i hstored
          refine .inr (.inr ⟨find?_of_any hstored, ?_, rfl⟩)
          intro a ha hid
          have hother : (key.id.isEmpty || a.id != key.id) = true := by simp [hid]
          simpa using forall_of_any_and hfree a ha hother
        · exact .inr (.inl ⟨_, rfl⟩)

namespace Leads

theorem congr (h : s.Leads credential k lenient) (hkeys : t.apiKeys = s.apiKeys) :
    t.Leads credential k lenient := by
  unfold Leads keyWithCredential?
  rw [hkeys]
  exact h

theorem weaken (h : s.Leads credential k lenient) (less : Bool) :
    s.Leads credential k (lenient && less) := by
  obtain ⟨key, hkey, hid, hmode⟩ := h
  exact ⟨key, hkey, hid, fun hboth => hmode (Bool.and_eq_true_iff.mp hboth).1⟩

theorem append (h : s.Leads credential k lenient) (key : ApiKey) :
    (s.withApiKeys (s.apiKeys ++ [key])).Leads credential k lenient := by
  obtain ⟨holder, hholder, hid, hmode⟩ := h
  refine ⟨holder, ?_, hid, hmode⟩
  rw [keyWithCredential?] at hholder ⊢
  simp only [withApiKeys, apiKeys] at hholder ⊢
  rw [List.find?_append, hholder, Option.some_or]

/-- A key that is stored in the place of one with its id, its credential and its mode. -/
theorem replaceLike (h : s.Leads credential k lenient) {test : ApiKey → Bool}
    (hfound : s.apiKeys.find? test = some found) (hid : stored.id = found.id)
    (hcredential : stored.credential = found.credential)
    (hmode : stored.compatibilityMode = found.compatibilityMode)
    (hkeys : t.apiKeys = replaceFirst test stored s.apiKeys) : t.Leads credential k lenient := by
  obtain ⟨holder, hholder, hhid, hhmode⟩ := h
  unfold Leads keyWithCredential?
  rw [hkeys]
  have hself : found = holder → sameCredential stored.credential credential = true := by
    rintro rfl
    exact sameCredential_iff.mpr (hcredential.trans (credential_of_find? hholder))
  rcases find?_replaceFirst hholder hfound hself with hstays | ⟨hnew, rfl | hother⟩
  · exact ⟨holder, hstays, hhid, hhmode⟩
  · exact ⟨stored, hnew, hid.trans hhid, fun hlenient => hmode.trans (hhmode hlenient)⟩
  · -- the stored key has the credential, so the one it took the place of had it too
    have hhas : sameCredential found.credential credential = true :=
      sameCredential_iff.mpr (hcredential.symm.trans (credential_of_find? hnew))
    rw [hhas] at hother
    cases hother

/-- The key with the id itself may be stored with its credential, any other key with another. -/
theorem replace (h : s.Leads credential k lenient) {id : String} {outcome : Outcome ApiKey}
    (hreplaces : s.Replaces id stored outcome)
    (hown : id = k → stored.id = k ∧ stored.credential = credential)
    (hmode : id = k → lenient = true → stored.compatibilityMode = true) :
    outcome.2.Leads credential k lenient := by
  obtain ⟨⟨found, hfound⟩, hfree, rfl⟩ := hreplaces
  obtain ⟨holder, hholder, hhid, hhmode⟩ := h
  obtain ⟨hmem, hcredential⟩ := credential_of_keyWithCredential? hholder
  have hfid : found.id = id := Lookup.name_of_find? hfound
  have hself : found = holder → sameCredential stored.credential credential = true := by
    rintro rfl
    exact sameCredential_iff.mpr (hown (hfid.symm.trans hhid)).2
  rcases find?_replaceFirst hholder hfound hself with hstays | ⟨hnew, -⟩
  · exact ⟨holder, hstays, hhid, hhmode⟩
  · by_cases hk : id = k
    · exact ⟨stored, hnew, (hown hk).1, hmode hk⟩
    · have hhas : stored.credential = credential := credential_of_find? hnew
      have hne : holder.id ≠ id := fun heq => hk (heq.symm.trans hhid)
      exact absurd (hcredential.trans hhas.symm) (hfree holder hmem hne)

theorem delete (h : s.Leads credential k lenient) {id : String} (hid : id ≠ k)
    (hkeys : t.apiKeys = s.apiKeys.filter (·.id != id)) : t.Leads credential k lenient := by
  obtain ⟨holder, hholder, hhid, hmode⟩ := h
  refine ⟨holder, ?_, hhid, hmode⟩
  obtain ⟨hhas, before, rest, hl, hbefore⟩ := List.find?_eq_some_iff_append.mp hholder
  have hkept : (holder.id != id) = true := bne_iff_ne.mpr (hhid ▸ hid.symm)
  have hrest : (holder :: rest).filter (·.id != id) = holder :: rest.filter (·.id != id) :=
    List.filter_cons_of_pos hkept
  rw [keyWithCredential?, hkeys, hl, List.filter_append, hrest]
  refine List.find?_eq_some_iff_append.mpr ⟨hhas, _, _, rfl, ?_⟩
  intro a ha
  exact hbefore a (List.mem_of_mem_filter ha)

theorem completeOn (h : s.Leads credential k lenient) {test : ApiKey → Bool}
    (hfound : s.apiKeys.find? test = some found) (counted : Bool) :
    (s.completeOn test found counted).2.Leads credential k lenient := by
  have hlike : (if counted then found.recordUse else found).id = found.id ∧
      (if counted then found.recordUse else found).credential = found.credential ∧
      (if counted then found.recordUse else found).compatibilityMode =
        found.compatibilityMode := by
    split <;> exact ⟨rfl, rfl, rfl⟩
  obtain ⟨hid, hcredential, hmode⟩ := hlike
  exact h.replaceLike hfound hid hcredential hmode rfl

/-! ## Operations -/

theorem load (h : s.Leads credential k lenient) {files : FileTree} {now : Moment}
    (hkeep : (s.load files now).1.toOption.isSome = false) :
    (s.load files now).2.Leads credential k lenient := by
  have hfails : s.Keeps (s.load files now) := keeps_load files now
  generalize s.load files now = outcome at hfails hkeep ⊢
  cases hfails with
  | error e => exact h
  | ok a path => cases hkeep

theorem upsertKey (h : s.Leads credential k lenient) {freshId : String} {now : Moment}
    (hkeep : (Operation.upsertKey freshId now key).withdraws k credential s = false) :
    (s.upsertKey freshId now key).2.Leads credential k
      (lenient && !(Operation.upsertKey freshId now key).restricts k s) := by
  simp only [Operation.withdraws, Operation.restricts] at hkeep ⊢
  rcases s.upsertKey_cases freshId now key with ⟨e, he⟩ | ⟨stored, he⟩ | hreplaces
  · rw [he]
    exact h.weaken _
  · rw [he]
    exact (h.append stored).weaken _
  · rw [hreplaces.eq] at hkeep
    refine (h.weaken _).replace hreplaces ?_ ?_
    · intro hid
      simpa [hid, Except.toOption] using hkeep
    · intro hid hmode
      rw [hreplaces.eq] at hmode
      simpa [hid, Except.toOption] using (Bool.and_eq_true_iff.mp hmode).2

theorem updateKey (h : s.Leads credential k lenient) {id : String} {patch : ApiKey → ApiKey}
    (hkeep : (Operation.updateKey id patch).withdraws k credential s = false) :
    (s.updateKey id patch).2.Leads credential k
      (lenient && !(Operation.updateKey id patch).restricts k s) := by
  simp only [Operation.withdraws, Operation.restricts] at hkeep ⊢
  rcases s.updateKey_cases id patch with ⟨e, he⟩ | ⟨stored, hreplaces⟩
  · rw [he]
    exact h.weaken _
  · rw [hreplaces.eq] at hkeep
    refine (h.weaken _).replace hreplaces ?_ ?_
    · intro hid
      simpa [hid, Except.toOption] using hkeep
    · intro hid hmode
      rw [hreplaces.eq] at hmode
      simpa [hid, Except.toOption] using (Bool.and_eq_true_iff.mp hmode).2

theorem deleteKey (h : s.Leads credential k lenient) {id : String}
    (hkeep : (Operation.deleteKey id).withdraws k credential s = false) :
    (s.deleteKey id).2.Leads credential k lenient := by
  simp only [Operation.withdraws] at hkeep
  unfold Store.deleteKey at hkeep ⊢
  dsimp only at hkeep ⊢
  split
  · exact h
  · rename_i hid
    rw [if_neg hid] at hkeep
    split
    · rename_i hstored
      rw [if_pos hstored] at hkeep
      exact h.delete (beq_eq_false_iff_ne.mp hkeep) rfl
    · exact h

theorem resetUsage (h : s.Leads credential k lenient) (id : String) :
    (s.resetUsage id).2.Leads credential k lenient := by
  unfold Store.resetUsage
  split
  · exact h
  · rename_i found hfound
    exact h.replaceLike hfound (rfl : found.resetUsage.id = found.id) rfl rfl rfl

theorem endRequest (h : s.Leads credential k lenient) (presented : String) (counted : Bool) :
    (s.endRequest presented counted).2.Leads credential k lenient := by
  rcases s.endRequest_cases presented counted with ⟨e, he⟩ | ⟨test, key, hkey, he⟩
  · rw [he]
    exact h
  · rw [he]
    exact h.completeOn hkey counted

theorem endRequestById (h : s.Leads credential k lenient) (id : String) (counted : Bool) :
    (s.endRequestById id counted).2.Leads credential k lenient := by
  rcases s.endRequestById_cases id counted with ⟨-, he⟩ | ⟨key, hkey, he⟩
  · rw [he]
    exact h
  · rw [he]
    exact h.completeOn hkey counted

/-- A credential that is not withdrawn leads to the same id, and to a key in compatibility mode
unless the key was restricted. -/
theorem apply (h : s.Leads credential k lenient) {op : Operation}
    (hkeep : op.withdraws k credential s = false) :
    (s.apply op).Leads credential k (lenient && !op.restricts k s) := by
  cases op <;> simp only [Store.apply]
  case load files now => exact (h.load hkeep).weaken _
  case save => exact h.weaken _
  case setPath path => exact (h.congr (s.sameKeys_setPath path).apiKeys).weaken _
  case upsertUser freshId now user =>
    exact (h.congr (s.sameKeys_upsertUser freshId now user).apiKeys).weaken _
  case updateUser id patch => exact (h.congr (s.sameKeys_updateUser id patch).apiKeys).weaken _
  case deleteUser id => exact (h.congr (s.sameKeys_deleteUser id).apiKeys).weaken _
  case hashPassword hasher salt password =>
    exact (h.congr (s.sameKeys_hashPassword hasher salt password).apiKeys).weaken _
  case authenticate hasher salt username password =>
    exact (h.congr (s.sameKeys_authenticate hasher salt username password).apiKeys).weaken _
  case upsertKey freshId now key => exact h.upsertKey hkeep
  case updateKey id patch => exact h.updateKey hkeep
  case deleteKey id => exact (h.deleteKey hkeep).weaken _
  case resetUsage id => exact (h.resetUsage id).weaken _
  case beginRequest presented => exact (h.congr (s.apiKeys_beginRequest presented)).weaken _
  case endRequest presented counted => exact (h.endRequest presented counted).weaken _
  case endRequestById id counted => exact (h.endRequestById id counted).weaken _
  case releaseSlots id => exact (h.congr (s.apiKeys_releaseSlots id)).weaken _

end Leads
end Store
end Turnstile
