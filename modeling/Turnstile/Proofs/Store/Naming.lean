import Turnstile.Proofs.Store.Holder
import Turnstile.Proofs.Store.Lane
import Turnstile.Proofs.Store.Retrieval

/-! What an id names. Some of the operations on a key by its id cut the blanks around the id that
they are given, and some take it as it stands. All of them strike the key that the id is found to
name, or none finds a key, exactly if the id and what is left of it without the blanks name the
same. -/

namespace Turnstile

/-- The operation is one on a key by its id, which is this text. A patch leaves the id of the key
alone. -/
def Operation.ByKeyId (id : String) : Operation → Prop
  | .updateKey other patch => other = id ∧ ∀ a, (patch a).id = a.id
  | .deleteKey other | .resetUsage other | .releaseSlots other | .endRequestById other _ =>
    other = id
  | _ => False

namespace Store

variable {s t : Store} {op : Operation} {key c : ApiKey} {id : String}

/-- The operation finds the key and leaves all others and their slots alone. It answers as it would
on the lane of the key and turns that lane, unless it refuses to give the key the credential of
another one. -/
structure Strikes (s : Store) (op : Operation) (key : ApiKey) : Prop where
  found : s.answer op ≠ .error .keyNotFound
  others : ∀ j, j ≠ key.id → (s.apply op).lane j = s.lane j
  own : s.answer op = (op.onKey key (s.inFlightOf key.id)).1 ∧
      (s.apply op).lane key.id = (op.onKey key (s.inFlightOf key.id)).2 ∨
    s.answer op = .error .duplicateApiKey ∧ s.apply op = s

/-- The operations by this id act on the key that is found by it, whose slots are counted under it.
If none is found, they find none. -/
def AgreeOn (s : Store) (id : String) : Prop :=
  match s.findKeyById? id with
  | none => ∀ op : Operation, op.ByKeyId id → s.answer op = .error .keyNotFound ∧ s.apply op = s
  | some key => s.inFlightOf id = s.inFlightOf key.id ∧
    ∀ op : Operation, op.ByKeyId id → s.Strikes op key

/-! ## Lanes -/

theorem onKey_found (hop : op.ByKeyId id) (n : UInt32) :
    (op.onKey key n).1 ≠ .error .keyNotFound ∧ (op.onKey key n).1 ≠ .error .userNotFound := by
  cases op with
  | updateKey id patch =>
    simp only [Operation.onKey, Lane.edit]
    split <;> simp [StoreError.ofRefusal]
  | deleteKey | resetUsage | releaseSlots | endRequestById => simp [Operation.onKey, Lane.complete]
  | _ => exact hop.elim

theorem ActsOn.strikes (h : s.ActsOn op key) (hop : op.ByKeyId id) : s.Strikes op key where
  found := by
    rw [h.answer]
    exact (onKey_found hop _).1
  others := h.turns.others
  own := .inl ⟨h.answer, h.turns.own⟩

theorem updateKey_of_refused (hfound : s.keyWithId? (Text.trim id) = some key)
    {patch : ApiKey → ApiKey} {refusal : Refusal}
    (hcheck : checkCredential (patch key).credential = .error refusal) :
    s.updateKey id patch = (.error (.ofRefusal refusal), s) := by
  simp only [updateKey, hfound, hcheck]

theorem updateKey_of_checked (hfound : s.keyWithId? (Text.trim id) = some key)
    {patch : ApiKey → ApiKey} (hcheck : checkCredential (patch key).credential = .ok ()) :
    s.updateKey id patch =
      if s.apiKeys.any fun a => a.id != Text.trim id && a.credential == (patch key).credential then
        (.error .duplicateApiKey, s)
      else (.ok (patch key),
        s.withApiKeys (replaceFirst (·.id == Text.trim id) (patch key) s.apiKeys)) := by
  simp only [updateKey, hfound, hcheck]

/-- A patch may also change the credential. -/
theorem strikes_updateKey (hids : (s.apiKeys.map ApiKey.id).Nodup)
    (hfound : s.keyWithId? (Text.trim id) = some key) {patch : ApiKey → ApiKey}
    (hpatch : ∀ a, (patch a).id = a.id) : s.Strikes (.updateKey id patch) key := by
  have hid : key.id = Text.trim id := Lookup.name_of_find? hfound
  have hlane : s.lane key.id = ⟨key, s.inFlightOf key.id⟩ := lane_eq (hid ▸ hfound) rfl
  cases hcheck : checkCredential (patch key).credential with
  | error refusal =>
    have hrefused := updateKey_of_refused hfound hcheck
    refine ⟨?_, ?_, .inl ?_⟩ <;>
      simp [answer, apply, hrefused, Operation.onKey, Lane.edit, hcheck, Except.map, hlane,
        StoreError.ofRefusal]
  | ok _ =>
    have hupdates := updateKey_of_checked hfound hcheck
    split at hupdates
    · refine ⟨?_, ?_, .inr ?_⟩ <;> simp [answer, apply, hupdates, Except.map]
    · obtain ⟨hown, hothers⟩ := lanes_of_replaceFirst
        (t := s.withApiKeys (replaceFirst _ (patch key) s.apiKeys)) hids hfound (hpatch key) rfl
        fun _ _ => rfl
      refine ⟨?_, ?_, .inl ⟨?_, ?_⟩⟩
      · simp [answer, hupdates, Except.map]
      · rw [apply, hupdates]
        exact hothers
      · simp only [answer, hupdates, Except.map, Operation.onKey, Lane.edit, hcheck]
      · simp only [apply, hupdates, Operation.onKey, Lane.edit, hcheck]
        exact hown

/-! ## What an id is looked up as -/

theorem Sound.findKeyById?_eq (h : s.Sound) (id : String) :
    s.findKeyById? id = s.keyWithId? (Text.trim id) := by
  rw [Store.findKeyById?_eq]
  split
  · rename_i hempty
    rw [hempty, eq_comm, keyWithId?, List.find?_eq_none]
    intro a ha
    simpa using h.records.apiKeys.ids_ne a ha
  · rfl

theorem keyWithId?_isSome_iff : (s.keyWithId? id).isSome ↔ ∃ a ∈ s.apiKeys, a.id = id := by
  simp [keyWithId?, List.find?_isSome]

/-- An id leads to the same key with the blanks around it and without if there are none around it,
or if no key has it either way. -/
theorem keyWithId?_eq_trim_iff :
    s.keyWithId? id = s.keyWithId? (Text.trim id) ↔
      Text.trim id = id ∨ ∀ a ∈ s.apiKeys, a.id ≠ id ∧ a.id ≠ Text.trim id := by
  constructor
  · intro hsame
    cases htrimmed : s.keyWithId? (Text.trim id) with
    | some key =>
      have hid : key.id = id := Lookup.name_of_find? (hsame.trans htrimmed)
      have htrim : key.id = Text.trim id := Lookup.name_of_find? htrimmed
      exact .inl (htrim.symm.trans hid)
    | none =>
      have hplain := hsame.trans htrimmed
      rw [keyWithId?, List.find?_eq_none] at htrimmed hplain
      exact .inr fun a ha => ⟨by simpa using hplain a ha, by simpa using htrimmed a ha⟩
  · rintro (htrim | hnone)
    · rw [htrim]
    · have hmisses (k : String) (hk : ∀ a ∈ s.apiKeys, a.id ≠ k) : s.keyWithId? k = none := by
        simpa [keyWithId?] using hk
      rw [hmisses _ fun a ha => (hnone a ha).1, hmisses _ fun a ha => (hnone a ha).2]

/-- Where both spellings of the id lead to the same key, every operation finds it. -/
theorem lookUp?_of_byKeyId (h : s.Sound) (hsame : s.keyWithId? id = s.keyWithId? (Text.trim id))
    (hop : op.ByKeyId id) : s.lookUp? op = s.keyWithId? (Text.trim id) := by
  cases op with
  | updateKey other patch =>
    obtain ⟨rfl, -⟩ := hop
    rfl
  | deleteKey other =>
    obtain rfl := hop
    exact h.findKeyById?_eq other
  | endRequestById other counted =>
    obtain rfl := hop
    rfl
  | resetUsage other | releaseSlots other =>
    obtain rfl := hop
    exact hsame
  | _ => exact hop.elim

theorem onKeys_of_byKeyId (hop : op.ByKeyId id) : op.onKeys = true := by
  cases op with
  | updateKey | deleteKey | resetUsage | releaseSlots | endRequestById => rfl
  | _ => exact hop.elim

theorem strikes_of_byKeyId (h : s.Sound) (hfound : s.lookUp? op = some key)
    (hop : op.ByKeyId id) : s.Strikes op key := by
  cases op <;> simp only [lookUp?] at hfound
  case updateKey other patch => exact strikes_updateKey h.keyIds hfound hop.2
  case deleteKey other => exact (actsOn_deleteKey hfound).strikes hop
  case resetUsage other => exact (actsOn_resetUsage h.keyIds hfound).strikes hop
  case releaseSlots other => exact (actsOn_releaseSlots h.keyIds hfound).strikes hop
  case endRequestById other counted =>
    exact (actsOn_endRequestById h.keyIds hfound counted).strikes hop
  all_goals exact hop.elim

/-- The one way in which such an operation finds nothing is to find no key. -/
theorem answer_eq_keyNotFound_iff (h : s.Sound) (hop : op.ByKeyId id) :
    s.answer op = .error .keyNotFound ↔ s.lookUp? op = none := by
  constructor
  · intro hanswer
    cases hfound : s.lookUp? op with
    | none => rfl
    | some key => exact absurd hanswer (strikes_of_byKeyId h hfound hop).found
  · exact fun hnone => (unchanged_of_lookUp?_none (onKeys_of_byKeyId hop) hnone).1

theorem answer_ne_userNotFound (h : s.Sound) (hop : op.ByKeyId id) :
    s.answer op ≠ .error .userNotFound := by
  cases hfound : s.lookUp? op with
  | none =>
    rw [(unchanged_of_lookUp?_none (onKeys_of_byKeyId hop) hfound).1]
    simp
  | some key =>
    rcases (strikes_of_byKeyId h hfound hop).own with ⟨hanswer, -⟩ | ⟨hrefused, -⟩
    · rw [hanswer]
      exact (onKey_found hop _).2
    · rw [hrefused]
      simp

/-- The operations by an id agree exactly if it leads to the same key with the blanks around it and
without. -/
theorem Sound.agreeOn_iff (h : s.Sound) :
    s.AgreeOn id ↔ s.keyWithId? id = s.keyWithId? (Text.trim id) := by
  rw [AgreeOn, h.findKeyById?_eq]
  constructor
  · intro hagree
    have hreset : Operation.ByKeyId id (.resetUsage id) := rfl
    cases htrimmed : s.keyWithId? (Text.trim id) with
    | none =>
      rw [htrimmed] at hagree
      have hanswer := (hagree _ hreset).1
      cases hplain : s.keyWithId? id with
      | none => rfl
      | some key => simp [answer, resetUsage, hplain, Except.map] at hanswer
    | some key =>
      rw [htrimmed] at hagree
      obtain ⟨hfound, -, hown⟩ := hagree.2 _ hreset
      cases hplain : s.keyWithId? id with
      | none => simp [answer, resetUsage, hplain, Except.map] at hfound
      | some other =>
        -- the key that was reset has the id of the key that was found
        have hanswer : s.answer (.resetUsage id) = .ok (.key other.resetUsage) := by
          simp only [answer, resetUsage, hplain, Except.map]
        rcases hown with ⟨hsame, -⟩ | ⟨hrefused, -⟩
        · rw [hanswer] at hsame
          simp only [Operation.onKey, Except.ok.injEq, Reply.key.injEq] at hsame
          have hid : other.resetUsage.id = key.resetUsage.id := congrArg _ hsame
          have hplainId : other.id = id := Lookup.name_of_find? hplain
          have htrimmedId : key.id = Text.trim id := Lookup.name_of_find? htrimmed
          rw [← hplain, ← htrimmed]
          exact congrArg s.keyWithId? (hplainId.symm.trans (hid.trans htrimmedId))
        · rw [hanswer] at hrefused
          cases hrefused
  · intro hsame
    cases htrimmed : s.keyWithId? (Text.trim id) with
    | none =>
      intro op hop
      refine unchanged_of_lookUp?_none (onKeys_of_byKeyId hop) ?_
      rw [lookUp?_of_byKeyId h hsame hop, htrimmed]
    | some key =>
      have hid : key.id = id := Lookup.name_of_find? (hsame.trans htrimmed)
      refine ⟨by rw [hid], fun op hop => strikes_of_byKeyId h ?_ hop⟩
      rw [lookUp?_of_byKeyId h hsame hop, htrimmed]

end Store
end Turnstile
