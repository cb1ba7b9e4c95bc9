import Turnstile.Proofs.Store.Operation
import Mathlib.Logic.Function.Iterate

/-! The used count of a key. It grows by one with every counted completion on the key, up to the
greatest count, and a reset takes it to zero. No other operation changes it, unless it replaces the
key as a whole: a load, an upsert under the id of the key, or a patch that is not made of edits. -/

namespace Turnstile

namespace ApiKey

/-- The greatest number of 64 bits. -/
def greatestCount : Nat := 0xFFFFFFFFFFFFFFFF

theorem usedCount_recordUse (key : ApiKey) :
    key.recordUse.usedCount.toNat = min greatestCount (key.usedCount.toNat + 1) := by
  have hbound := key.usedCount.toNat_lt
  unfold recordUse greatestCount
  dsimp only
  split
  · rename_i h
    have hlt := UInt64.lt_iff_toNat_lt.mp h
    rw [UInt64.toNat_add]
    simp only [UInt64.toNat_ofNat] at hlt ⊢
    omega
  · rename_i h
    have hle := UInt64.le_iff_toNat_le.mp (UInt64.not_lt.mp h)
    simp only [UInt64.toNat_ofNat] at hle
    omega

theorem recordUse_eq (key : ApiKey) :
    key.recordUse =
      { key with usedCount := .ofNat (min greatestCount (key.usedCount.toNat + 1)) } := by
  have hcount : key.recordUse.usedCount =
      .ofNat (min greatestCount (key.usedCount.toNat + 1)) := by
    rw [← key.usedCount_recordUse, UInt64.ofNat_toNat]
  rw [← hcount]
  rfl

theorem iterate_recordUse (key : ApiKey) (n : Nat) :
    recordUse^[n] key =
      { key with usedCount := .ofNat (min greatestCount (key.usedCount.toNat + n)) } := by
  have hbound := key.usedCount.toNat_lt
  induction n with
  | zero =>
    have hsame : min greatestCount (key.usedCount.toNat + 0) = key.usedCount.toNat := by
      unfold greatestCount
      omega
    rw [hsame, UInt64.ofNat_toNat]
    rfl
  | succ n ih =>
    have hcount : (UInt64.ofNat (min greatestCount (key.usedCount.toNat + n))).toNat =
        min greatestCount (key.usedCount.toNat + n) := by
      refine UInt64.toNat_ofNat_of_lt' ?_
      unfold greatestCount UInt64.size
      omega
    have hnext : min greatestCount (min greatestCount (key.usedCount.toNat + n) + 1) =
        min greatestCount (key.usedCount.toNat + (n + 1)) := by
      omega
    rw [Function.iterate_succ_apply', ih, recordUse_eq]
    simp only [hcount, hnext]

end ApiKey

namespace KeyEdit

theorem id_applyAll (edits : List KeyEdit) (key : ApiKey) : (applyAll edits key).id = key.id := by
  unfold applyAll
  induction edits generalizing key with
  | nil => rfl
  | cons edit edits ih =>
    rw [List.foldl_cons, ih]
    cases edit <;> rfl

theorem usedCount_applyAll {edits : List KeyEdit} (h : .resetUsage ∉ edits) (key : ApiKey) :
    (applyAll edits key).usedCount = key.usedCount := by
  unfold applyAll
  induction edits generalizing key with
  | nil => rfl
  | cons edit edits ih =>
    rw [List.foldl_cons, ih (fun hmem => h (List.mem_cons_of_mem _ hmem))]
    cases edit with
    | resetUsage => exact absurd List.mem_cons_self h
    | _ => rfl

end KeyEdit

/-- The operation does not replace the key as a whole. A patch may choose its edits by the key that
it finds. -/
def Operation.KeepsKey (k : String) : Operation → Prop
  | .load _ _ => False
  | .upsertKey _ _ key => key.id ≠ k
  | .updateKey id patch =>
    Text.trim id = k →
      ∀ key, ∃ edits, .resetUsage ∉ edits ∧ patch key = KeyEdit.applyAll edits key
  | _ => True

namespace Store

variable {s t : Store} {k : String} {key : ApiKey}

/-- The used count of the first key with that id. -/
def usedOf (s : Store) (k : String) : Nat :=
  ((s.keyWithId? k).map (·.usedCount.toNat)).getD 0

theorem usedOf_of_keysWithId (h : s.keysWithId k = [key]) :
    s.usedOf k = key.usedCount.toNat := by
  rw [usedOf, keyWithId?_of_keysWithId h]; rfl

theorem usedOf_le (s : Store) (k : String) : s.usedOf k ≤ ApiKey.greatestCount := by
  unfold usedOf ApiKey.greatestCount
  cases s.keyWithId? k with
  | none => exact Nat.zero_le _
  | some found =>
    have hbound := found.usedCount.toNat_lt
    rw [Option.map_some, Option.getD_some]
    omega

theorem usedOf_congr (h : t.keysWithId k = s.keysWithId k) : t.usedOf k = s.usedOf k := by
  rw [usedOf, usedOf, keyWithId?, keyWithId?, ← List.head?_filter, ← List.head?_filter]
  exact congrArg (fun l => ((List.head? l).map (·.usedCount.toNat)).getD 0) h

theorem keysWithId_congr (h : t.apiKeys = s.apiKeys) : t.keysWithId k = s.keysWithId k := by
  rw [keysWithId, keysWithId, h]

/-! ## Completions -/

/-- A completion by id is one on the key if the trimmed id is that of the key. -/
theorem move_endRequestById (h : s.keysWithId k = [key]) (id : String) (counted : Bool) :
    (Operation.endRequestById id counted).move k s = .completion ↔ Text.trim id = k := by
  simp only [Operation.move]
  rcases s.endRequestById_cases id counted with ⟨hnone, he⟩ | ⟨found, hfound, he⟩
  · rw [he]
    constructor
    · intro hmove
      cases hmove
    · rintro rfl
      rw [keyWithId?_of_keysWithId h] at hnone
      cases hnone
  · have hid : found.id = Text.trim id := Lookup.name_of_find? hfound
    have hafter : (if counted then found.recordUse else found).id = found.id := by
      split <;> rfl
    rw [he, completeOn, Move.ifAnswered, hafter, hid]
    by_cases hk : Text.trim id = k
    · rw [if_pos hk]
      exact ⟨fun _ => hk, fun _ => rfl⟩
    · rw [if_neg hk]
      exact ⟨Move.noConfusion, fun hk' => absurd hk' hk⟩

theorem usedOf_completeOn (h : s.keysWithId k = [key]) {test : ApiKey → Bool}
    (hfound : s.apiKeys.find? test = some key) (counted : Bool) :
    (s.completeOn test key counted).2.usedOf k =
      if counted then min ApiKey.greatestCount (s.usedOf k + 1) else s.usedOf k := by
  have hafter : (if counted then key.recordUse else key).id = k := by
    split <;> exact (mem_of_keysWithId h).2
  have hkeys : (s.completeOn test key counted).2.keysWithId k =
      [if counted then key.recordUse else key] :=
    filter_replaceFirst_self _ h hfound hafter
  rw [usedOf_of_keysWithId hkeys, usedOf_of_keysWithId h]
  cases counted with
  | false => rfl
  | true => exact key.usedCount_recordUse

theorem usedOf_endRequestById (h : s.keysWithId k = [key]) {id : String} (hid : Text.trim id = k)
    (counted : Bool) :
    (s.apply (.endRequestById id counted)).usedOf k =
      if counted then min ApiKey.greatestCount (s.usedOf k + 1) else s.usedOf k := by
  rw [apply]
  have hkey := keyWithId?_of_keysWithId h
  rcases s.endRequestById_cases id counted with ⟨hnone, -⟩ | ⟨found, hfound, he⟩
  · rw [hid, hkey] at hnone
    cases hnone
  · rw [hid] at hfound
    rw [hkey] at hfound
    cases hfound
    rw [he, hid]
    exact usedOf_completeOn h hkey counted

/-- A completion on the key counts for one at most. -/
theorem usedOf_completion {op : Operation} (h : s.keysWithId k = [key])
    (hmove : op.move k s = .completion) :
    s.usedOf k ≤ (s.apply op).usedOf k ∧ (s.apply op).usedOf k ≤ s.usedOf k + 1 := by
  obtain ⟨test, found, hfound, hid, happly⟩ := Operation.move_eq_completion hmove
  have hkey := eq_of_keysWithId h (List.mem_of_find?_eq_some hfound) hid
  subst hkey
  have hle := s.usedOf_le k
  rw [happly, usedOf_completeOn h hfound]
  split <;> omega

theorem usedOf_resetUsage (h : s.keysWithId k = [key]) :
    (s.apply (.resetUsage k)).usedOf k = 0 := by
  have hkey := keyWithId?_of_keysWithId h
  have hkeys : (s.resetUsage k).2.keysWithId k = [key.resetUsage] := by
    rw [resetUsage, hkey]
    exact filter_replaceFirst_self _ h hkey (mem_of_keysWithId h).2
  rw [apply, usedOf_of_keysWithId hkeys]
  rfl

/-! ## Other operations -/

/-- As long as one key has the id, an operation that keeps the keys with it or adds one to them has
kept them. -/
theorem usedOf_of_kept_or_added (h : s.keysWithId k = [key]) (h' : (t.keysWithId k).length = 1)
    (hkeys : t.keysWithId k = s.keysWithId k ∨
      (t.keysWithId k).length = (s.keysWithId k).length + 1) :
    t.usedOf k = s.usedOf k := by
  rcases hkeys with hkept | hadded
  · exact usedOf_congr hkept
  · rw [h, h'] at hadded
    cases hadded

theorem keysWithId_upsertKey {freshId : String} {now : Moment} {given : ApiKey}
    (hid : given.id ≠ k) :
    (s.upsertKey freshId now given).2.keysWithId k = s.keysWithId k ∨
      ((s.upsertKey freshId now given).2.keysWithId k).length =
        (s.keysWithId k).length + 1 := by
  unfold upsertKey
  split
  · exact .inl rfl
  · split
    · exact .inl rfl
    · split
      · exact filter_append_key _
      · split
        · rename_i hstored
          have hsome : (s.apiKeys.find? (·.id == given.id)).isSome = true :=
            List.find?_isSome.mpr (List.any_eq_true.mp hstored)
          obtain ⟨found, hfound⟩ := Option.isSome_iff_exists.mp hsome
          have hfid : found.id = given.id := Lookup.name_of_find? hfound
          exact filter_replaceFirst_other _ hfound (by rw [hfid]; exact hid)
        · exact filter_append_key _

/-- A patch of another key. -/
theorem keysWithId_updateKey {id : String} {patch : ApiKey → ApiKey} (hid : Text.trim id ≠ k) :
    (s.updateKey id patch).2.keysWithId k = s.keysWithId k ∨
      ((s.updateKey id patch).2.keysWithId k).length = (s.keysWithId k).length + 1 := by
  unfold updateKey
  dsimp only
  split
  · exact .inl rfl
  · rename_i found hfound
    have hfid : found.id = Text.trim id := Lookup.name_of_find? hfound
    split
    · exact .inl rfl
    · split
      · exact .inl rfl
      · exact filter_replaceFirst_other _ hfound (by rw [hfid]; exact hid)

/-- A patch of the key that is made of edits. -/
theorem usedOf_updateKey (h : s.keysWithId k = [key]) {id : String} (hid : Text.trim id = k)
    {patch : ApiKey → ApiKey} {edits : List KeyEdit} (hedits : .resetUsage ∉ edits)
    (hpatch : patch key = KeyEdit.applyAll edits key) :
    (s.updateKey id patch).2.usedOf k = s.usedOf k := by
  have hkey := keyWithId?_of_keysWithId h
  unfold updateKey
  dsimp only
  rw [hid, hkey]
  dsimp only
  rw [hpatch]
  split
  · rfl
  · split
    · rfl
    · have hkeys : (s.withApiKeys (replaceFirst (·.id == k) (KeyEdit.applyAll edits key)
          s.apiKeys)).keysWithId k = [KeyEdit.applyAll edits key] := by
        refine filter_replaceFirst_self _ h hkey ?_
        rw [KeyEdit.id_applyAll]
        exact (mem_of_keysWithId h).2
      rw [usedOf_of_keysWithId hkeys, usedOf_of_keysWithId h, KeyEdit.usedCount_applyAll hedits]

theorem keysWithId_deleteKey {id : String} (h : (s.deleteKey id).2.keysWithId k ≠ []) :
    (s.deleteKey id).2.keysWithId k = s.keysWithId k := by
  rw [deleteKey_eq] at h ⊢
  cases hfound : s.findKeyById? id with
  | none => rfl
  | some deleted =>
    rw [hfound] at h
    have hid : k ≠ deleted.id := ne_of_filter_ne_nil h
    simp only [keysWithId, apiKeys, withApiKeys, List.filter_filter]
    refine List.filter_congr ?_
    intro a _
    by_cases ha : a.id = k
    · simp [ha, hid]
    · simp [ha]

theorem keysWithId_resetUsage {id : String} (hid : id ≠ k) :
    (s.resetUsage id).2.keysWithId k = s.keysWithId k ∨
      ((s.resetUsage id).2.keysWithId k).length = (s.keysWithId k).length + 1 := by
  unfold resetUsage
  split
  · exact .inl rfl
  · rename_i found hfound
    have hfid : found.id = id := Lookup.name_of_find? hfound
    exact filter_replaceFirst_other _ hfound (by rw [hfid]; exact hid)

theorem keysWithId_completeOn {test : ApiKey → Bool} {found : ApiKey}
    (hfound : s.apiKeys.find? test = some found) (counted : Bool)
    (h : Move.completion.ifAnswered k (s.completeOn test found counted).1 ≠ .completion) :
    (s.completeOn test found counted).2.keysWithId k = s.keysWithId k ∨
      ((s.completeOn test found counted).2.keysWithId k).length =
        (s.keysWithId k).length + 1 := by
  have hafter : (if counted then found.recordUse else found).id = found.id := by
    split <;> rfl
  refine filter_replaceFirst_other _ hfound ?_
  intro hid
  apply h
  rw [completeOn, Move.ifAnswered, hafter, if_pos hid]

/-- What neither completes a request of the key, nor resets it, nor replaces it, leaves its used
count. -/
theorem usedOf_apply {op : Operation} (h : s.keysWithId k = [key])
    (h' : ((s.apply op).keysWithId k).length = 1) (hkeeps : op.KeepsKey k)
    (hmove : op.move k s ≠ .completion) (hreset : op ≠ .resetUsage k) :
    (s.apply op).usedOf k = s.usedOf k := by
  have kept {t : Store} (ht : t.apiKeys = s.apiKeys) : t.usedOf k = s.usedOf k :=
    usedOf_congr (keysWithId_congr ht)
  -- What is left to the other operations is to bring a second key under the id, and none does.
  cases op <;> simp only [Operation.move, Operation.KeepsKey, apply] at h' hkeeps hmove ⊢
  case setPath path => exact kept (s.sameKeys_setPath path).apiKeys
  case upsertUser freshId now user => exact kept (s.sameKeys_upsertUser freshId now user).apiKeys
  case updateUser id patch => exact kept (s.sameKeys_updateUser id patch).apiKeys
  case deleteUser id => exact kept (s.sameKeys_deleteUser id).apiKeys
  case hashPassword hasher salt password =>
    exact kept (s.sameKeys_hashPassword hasher salt password).apiKeys
  case authenticate hasher salt username password =>
    exact kept (s.sameKeys_authenticate hasher salt username password).apiKeys
  case upsertKey freshId now given =>
    exact usedOf_of_kept_or_added h h' (keysWithId_upsertKey hkeeps)
  case updateKey id patch =>
    by_cases hid : Text.trim id = k
    · obtain ⟨edits, hedits, hpatch⟩ := hkeeps hid key
      exact usedOf_updateKey h hid hedits hpatch
    · exact usedOf_of_kept_or_added h h' (keysWithId_updateKey hid)
  case deleteKey id =>
    have hstays : (s.deleteKey id).2.keysWithId k ≠ [] := by
      rw [← List.length_pos_iff, h']
      exact Nat.one_pos
    exact usedOf_congr (keysWithId_deleteKey hstays)
  case resetUsage id =>
    have hid : id ≠ k := fun hid => hreset (congrArg Operation.resetUsage hid)
    exact usedOf_of_kept_or_added h h' (keysWithId_resetUsage hid)
  case beginRequest credential => exact kept (s.apiKeys_beginRequest credential)
  case endRequest credential counted =>
    rcases s.endRequest_cases credential counted with ⟨e, he⟩ | ⟨test, found, hfound, he⟩
    · rw [he]
    · rw [he] at h' hmove ⊢
      exact usedOf_of_kept_or_added h h' (keysWithId_completeOn hfound counted hmove)
  case endRequestById id counted =>
    rcases s.endRequestById_cases id counted with ⟨-, he⟩ | ⟨found, hfound, he⟩
    · rw [he]
    · rw [he] at h' hmove ⊢
      exact usedOf_of_kept_or_added h h' (keysWithId_completeOn hfound counted hmove)
  case releaseSlots id => exact kept (s.apiKeys_releaseSlots id)

end Store
end Turnstile
