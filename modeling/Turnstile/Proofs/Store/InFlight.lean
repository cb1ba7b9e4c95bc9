import Turnstile.Store.InFlight
import Turnstile.Proofs.Lookup

/-! What each change of the requests in flight does to the count of one id. -/

namespace Turnstile.InFlight

variable {id other : String} {n : UInt32} {m : InFlight}

theorem lookup_put_self : (put id n m).lookup id = some n := by
  induction m with
  | nil => simp [put]
  | cons entry rest ih =>
    obtain ⟨name, old⟩ := entry
    by_cases h : name = id
    · simp [put, h]
    · have hne : (id == name) = false := beq_false_of_ne (Ne.symm h)
      simp [put, h, List.lookup_cons, hne, ih]

theorem lookup_put_of_ne (h : other ≠ id) : (put id n m).lookup other = m.lookup other := by
  have hne : (other == id) = false := beq_false_of_ne h
  induction m with
  | nil => simp [put, List.lookup_cons, hne]
  | cons entry rest ih =>
    obtain ⟨name, old⟩ := entry
    by_cases hn : name = id
    · subst hn
      simp [put, List.lookup_cons, hne]
    · simp [put, hn, List.lookup_cons, ih]

@[simp] theorem count_put_self : (put id n m).count id = n := by
  simp [count, lookup_put_self]

theorem count_put_of_ne (h : other ≠ id) : (put id n m).count other = m.count other := by
  simp [count, lookup_put_of_ne h]

@[simp] theorem count_remove_self : (m.remove id).count id = 0 := by
  rw [count, remove, Lookup.lookup_filter_self]
  rfl

theorem count_remove_of_ne (h : other ≠ id) : (m.remove id).count other = m.count other := by
  rw [count, remove, Lookup.lookup_filter_of_ne h, count]

theorem count_reserve_of_ne (h : other ≠ id) : (m.reserve id).count other = m.count other :=
  count_put_of_ne h

theorem count_giveBack_of_ne (h : other ≠ id) : (m.giveBack id).count other = m.count other := by
  unfold giveBack
  split
  · exact count_remove_of_ne h
  · exact count_put_of_ne h

/-! ## Entries that are made before they are filled -/

@[simp] theorem count_entry : (m.entry id).count id = m.count id := by
  unfold entry
  split
  · rfl
  · rename_i h
    have hnone : m.lookup id = none := Option.not_isSome_iff_eq_none.mp h
    simp [count, List.lookup_append, hnone]

theorem put_append_empty (h : m.lookup id = none) : put id n (m ++ [(id, 0)]) = put id n m := by
  induction m with
  | nil => simp [put]
  | cons entry rest ih =>
    obtain ⟨name, old⟩ := entry
    rw [List.lookup_cons] at h
    split at h
    · cases h
    · rename_i hne
      have hname : (name == id) = false := by
        rw [Bool.beq_comm]
        exact hne
      rw [List.cons_append, put, put, hname, ih h]
      rfl

@[simp] theorem reserve_entry : (m.entry id).reserve id = m.reserve id := by
  rw [reserve, count_entry, reserve]
  unfold entry
  split
  · rfl
  · rename_i h
    exact put_append_empty (Option.not_isSome_iff_eq_none.mp h)

/-- An entry that is not empty is there already. -/
theorem entry_of_pos (h : 0 < m.count id) : m.entry id = m := by
  rw [entry, if_pos]
  unfold count at h
  cases hlookup : m.lookup id with
  | some n => rfl
  | none =>
    rw [hlookup] at h
    exact absurd h (by decide)

/-! ## Counts that do not wrap around -/

/-- A reservation below some bound of the counter does not wrap around. -/
theorem toNat_count_reserve {bound : UInt32} (h : m.count id < bound) :
    ((m.reserve id).count id).toNat = (m.count id).toNat + 1 := by
  have hbound := bound.toNat_lt
  have hlt := UInt32.lt_iff_toNat_lt.mp h
  rw [reserve, count_put_self, UInt32.toNat_add]
  simp only [UInt32.toNat_one]
  omega

theorem toNat_count_giveBack : ((m.giveBack id).count id).toNat = (m.count id).toNat - 1 := by
  unfold giveBack
  split
  · rename_i h
    have hle := UInt32.le_iff_toNat_le.mp h
    rw [count_remove_self]
    simp only [UInt32.toNat_zero, UInt32.toNat_one] at hle ⊢
    omega
  · rename_i h
    have hle : (1 : UInt32) ≤ m.count id := by
      rw [UInt32.le_iff_toNat_le] at h ⊢
      omega
    rw [count_put_self, UInt32.toNat_sub_of_le _ _ hle, UInt32.toNat_one]

/-! ## A slot that is given back at once -/

theorem put_put (a b : UInt32) : put id a (put id b m) = put id a m := by
  induction m with
  | nil => simp [put]
  | cons entry rest ih =>
    obtain ⟨name, old⟩ := entry
    by_cases h : name = id
    · simp [put, h]
    · simp [put, h, ih]

theorem put_of_lookup (h : m.lookup id = some n) : put id n m = m := by
  induction m with
  | nil => cases h
  | cons entry rest ih =>
    obtain ⟨name, old⟩ := entry
    by_cases hname : name = id
    · subst hname
      rw [List.lookup_cons_self, Option.some.injEq] at h
      rw [put, if_pos (beq_self_eq_true name), h]
    · have hne : (id == name) = false := beq_false_of_ne (Ne.symm hname)
      rw [List.lookup_cons, hne] at h
      rw [put, if_neg (by simpa using hname), ih h]

theorem remove_put_of_lookup_none (h : m.lookup id = none) : (put id n m).remove id = m := by
  induction m with
  | nil => simp [put, remove]
  | cons entry rest ih =>
    obtain ⟨name, old⟩ := entry
    by_cases hname : name = id
    · subst hname
      rw [List.lookup_cons_self] at h
      cases h
    · have hne : (id == name) = false := beq_false_of_ne (Ne.symm hname)
      rw [List.lookup_cons, hne] at h
      rw [put, if_neg (by simpa using hname), remove,
        List.filter_cons_of_pos (by simpa using hname)]
      exact congrArg _ (ih h)

/-- Where no entry is empty, a slot that is reserved below some bound and given back leaves no
trace. -/
theorem giveBack_reserve {bound : UInt32} (hcounts : ∀ entry ∈ m, 1 ≤ entry.2)
    (hroom : m.count id < bound) : (m.reserve id).giveBack id = m := by
  have hcount := toNat_count_reserve hroom
  have hlast : (m.reserve id).count id ≤ 1 ↔ m.count id = 0 := by
    rw [UInt32.le_iff_toNat_le, hcount, UInt32.toNat_one, ← UInt32.toNat_inj, UInt32.toNat_zero]
    omega
  cases hlookup : m.lookup id with
  | none =>
    have hzero : m.count id = 0 := by rw [count, hlookup, Option.getD_none]
    rw [giveBack, if_pos (hlast.mpr hzero), reserve]
    exact remove_put_of_lookup_none hlookup
  | some n =>
    have hn : m.count id = n := by rw [count, hlookup, Option.getD_some]
    obtain ⟨before, rest, hm, -⟩ := List.lookup_eq_some_iff.mp hlookup
    have hpos : 1 ≤ n := hcounts (id, n) (by simp [hm])
    have hback : m.count id + 1 - 1 = n := by rw [hn, UInt32.add_sub_cancel]
    have hmore : ¬ (m.reserve id).count id ≤ 1 := by
      rw [hlast, hn]
      rintro rfl
      exact absurd hpos (by decide)
    rw [giveBack, if_neg hmore, reserve, count_put_self, put_put, hback]
    exact put_of_lookup hlookup

/-! ## Entries -/

variable {entry : String × UInt32}

theorem mem_put (h : entry ∈ put id n m) : entry = (id, n) ∨ entry ∈ m := by
  induction m with
  | nil => exact .inl (List.mem_singleton.mp h)
  | cons first rest ih =>
    obtain ⟨name, old⟩ := first
    by_cases hname : name = id
    · rw [put, if_pos (beq_iff_eq.mpr hname)] at h
      exact (List.mem_cons.mp h).imp_right (List.mem_cons_of_mem _)
    · rw [put, if_neg (by simpa using hname)] at h
      rcases List.mem_cons.mp h with rfl | hrest
      · exact .inr List.mem_cons_self
      · exact (ih hrest).imp_right (List.mem_cons_of_mem _)

theorem mem_remove (h : entry ∈ m.remove id) : entry ∈ m ∧ entry.1 ≠ id :=
  ⟨(List.mem_filter.mp h).1, bne_iff_ne.mp (List.mem_filter.mp h).2⟩

/-- A reservation below some bound of the counter leaves no empty entry. -/
theorem mem_reserve {bound : UInt32} (hroom : m.count id < bound) (h : entry ∈ m.reserve id) :
    entry ∈ m ∨ entry.1 = id ∧ 1 ≤ entry.2 := by
  rcases mem_put h with rfl | hold
  · refine .inr ⟨rfl, ?_⟩
    have hcount := toNat_count_reserve hroom
    rw [reserve, count_put_self] at hcount
    rw [UInt32.le_iff_toNat_le, hcount, UInt32.toNat_one]
    omega
  · exact .inl hold

theorem mem_giveBack (h : entry ∈ m.giveBack id) : entry ∈ m ∨ entry.1 = id ∧ 1 ≤ entry.2 := by
  unfold giveBack at h
  split at h
  · exact .inl (mem_remove h).1
  · rename_i hmore
    rcases mem_put h with rfl | hold
    · refine .inr ⟨rfl, ?_⟩
      rw [UInt32.le_iff_toNat_le, UInt32.toNat_one] at hmore ⊢
      have hle : (1 : UInt32) ≤ m.count id := by
        rw [UInt32.le_iff_toNat_le, UInt32.toNat_one]
        omega
      rw [UInt32.toNat_sub_of_le _ _ hle, UInt32.toNat_one]
      omega
    · exact .inl hold

end Turnstile.InFlight
