import Turnstile.Proofs.Admission.Ceiling
import Turnstile.Proofs.Store.Usage

/-! The lifetime quota of a key. The quota is checked when a request is admitted and charged when it
is completed, so requests that are open together may carry the used count past it. What is charged
and what is open grow together at admissions alone, which need quota left: their sum stays within
the quota and one less than the requests that were ever open at once. Once the quota is used up,
nothing but a reset brings it back. -/

namespace Turnstile

/-- The operation may write the used count of the key without completing a request. -/
def Operation.MayRecount (k : String) (op : Operation) : Prop :=
  ¬ op.KeepsKey k ∨ op = .resetUsage k

namespace Store

variable {s : Store} {k : String} {key : ApiKey} {op : Operation}

/-- An admission needs quota left. -/
theorem usedOf_lt_of_admission (h : s.keysWithId k = [key]) (hlimit : 0 < key.totalLimit)
    (hmove : op.move k s = .admission) : s.usedOf k < key.totalLimit.toNat := by
  obtain ⟨credential, found, -, hok, hid⟩ := Operation.move_eq_admission hmove
  rcases s.beginRequest_cases credential with ⟨e, he⟩ | ⟨only, hfound, -, hquota, hcases⟩
  · rw [he] at hok
    cases hok
  · have hsame : (s.beginRequest credential).1 = .ok only := by
      rcases hcases with ⟨-, he⟩ | ⟨-, -, he⟩ <;> rw [he]
    rw [hsame] at hok
    cases hok
    have hkey := eq_of_keysWithId h (mem_of_findKey? hfound) hid
    subst hkey
    rw [ApiKey.exhausted, ApiKey.hasTotalLimit, decide_eq_true hlimit, Bool.true_and] at hquota
    rw [usedOf_of_keysWithId h, ← UInt64.lt_iff_toNat_lt]
    exact UInt64.not_le.mp (of_decide_eq_false hquota)

/-- A request on a key whose quota is used up. -/
theorem beginRequest_exhausted {credential : String} (h : s.findKey? credential = some key)
    (hquota : key.exhausted = true) :
    (s.beginRequest credential).1 =
      .error (if key.enabled then .quotaExceeded else .keyDisabled) := by
  rw [beginRequest_answer h]
  cases henabled : key.enabled <;> simp [hquota]

end Store

namespace Traffic

variable {k : String} {s : Store} {run past early late : List Event} {e : Event} {total : UInt64}

/-- In every state of the run exactly one key is stored under the id, with this quota, and its used
count is written by completions alone. -/
structure Metered (k : String) (total : UInt64) (s : Store) (run : List Event) : Prop where
  quota : ∀ past, past <+: run →
    ((after k s past).store.keysWithId k).map ApiKey.totalLimit = [total]
  keepsCount : ∀ past e, past ++ [e] <+: run → e.op.MayRecount k →
    (after k s (past ++ [e])).store.usedOf k = (after k s past).store.usedOf k

/-- What has been charged to the key and what is still open. -/
def committed (k : String) (t : Traffic) : Nat := t.store.usedOf k + t.opened.length

namespace Metered

theorem storedOnce (h : Metered k total s run) : StoredOnce k s run := by
  intro past hp
  have hlength := congrArg List.length (h.quota past hp)
  rwa [List.length_map] at hlength

theorem keysWithId (h : Metered k total s run) (hp : past <+: run) :
    ∃ key, (after k s past).store.keysWithId k = [key] ∧ key.totalLimit = total := by
  obtain ⟨key, hkey⟩ := keysWithId_of_storedOnce h.storedOnce hp
  have hquota := h.quota past hp
  rw [hkey] at hquota
  exact ⟨key, hkey, List.singleton_injective hquota⟩

theorem usedOf_step (h : Metered k total s run) (hp : past ++ [e] <+: run)
    (hmove : e.op.move k (after k s past).store ≠ .completion) :
    (after k s (past ++ [e])).store.usedOf k = (after k s past).store.usedOf k := by
  by_cases hmay : e.op.MayRecount k
  · exact h.keepsCount past e hp hmay
  · obtain ⟨hkeeps, hreset⟩ := not_or.mp hmay
    obtain ⟨key, hkey, -⟩ := h.keysWithId ((List.prefix_append past [e]).trans hp)
    have hafter := h.storedOnce _ hp
    rw [after_concat] at hafter ⊢
    exact Store.usedOf_apply hkey hafter (not_not.mp hkeeps) hmove hreset

/-- The used count never falls. -/
theorem usedOf_mono (h : Metered k total s run) (hp : early ++ late <+: run) :
    (after k s early).store.usedOf k ≤ (after k s (early ++ late)).store.usedOf k := by
  induction late using List.reverseRecOn with
  | nil => rw [List.append_nil]
  | append_singleton late e ih =>
    rw [← List.append_assoc] at hp ⊢
    have hpast := (List.prefix_append _ [e]).trans hp
    refine (ih hpast).trans ?_
    by_cases hmove : e.op.move k (after k s (early ++ late)).store = .completion
    · obtain ⟨key, hkey, -⟩ := h.keysWithId hpast
      rw [after_concat]
      exact (Store.usedOf_completion hkey hmove).1
    · exact (h.usedOf_step hp hmove).ge

/-- Only an admission commits more, and it needs quota left. -/
theorem committed_step (h : Metered k total s run) (htotal : 0 < total)
    (hmatched : Matched k s run) (hp : past ++ [e] <+: run) :
    committed k (after k s (past ++ [e])) ≤ committed k (after k s past) ∨
      (after k s (past ++ [e])).store.usedOf k < total.toNat := by
  have hpast := (List.prefix_append past [e]).trans hp
  obtain ⟨key, hkey, hquota⟩ := h.keysWithId hpast
  unfold committed
  cases hm : e.op.move k (after k s past).store with
  | admission =>
    refine .inr ?_
    rw [h.usedOf_step hp (by rw [hm]; exact Move.noConfusion), ← hquota]
    exact Store.usedOf_lt_of_admission hkey (hquota ▸ htotal) hm
  | completion =>
    obtain ⟨i, hi, hlt⟩ := hmatched past e hp hm
    have hlength := length_opened_step_own hm hi hlt
    have hused := (Store.usedOf_completion hkey hm).2
    rw [after_concat]
    refine .inl ?_
    have hstore : ((after k s past).step k e).store = (after k s past).store.apply e.op := rfl
    rw [hstore]
    omega
  | release =>
    refine .inl ?_
    rw [h.usedOf_step hp (by rw [hm]; exact Move.noConfusion), after_concat,
      opened_step_release hm, List.length_map]
  | other =>
    refine .inl ?_
    rw [h.usedOf_step hp (by rw [hm]; exact Move.noConfusion), after_concat,
      length_opened_step_other hm]

/-- With at most `most` requests open at once, what is committed stays within the quota and one less
than those. -/
theorem committed_le (h : Metered k total s run) (htotal : 0 < total) (hmatched : Matched k s run)
    {most : Nat} (hmost : ∀ past, past <+: run → (after k s past).opened.length ≤ most) :
    ∀ past, past <+: run →
      committed k (after k s past) ≤ max (s.usedOf k) (total.toNat + most - 1) := by
  refine Run.prefix_induction (Nat.le_max_left _ _) ?_
  intro past e hp ih
  rcases h.committed_step htotal hmatched hp with hless | hroom
  · exact hless.trans ih
  · have hopen := hmost _ hp
    unfold committed
    omega

/-- What is used up stays used up. -/
theorem exhausted (h : Metered k total s run) (htotal : 0 < total) (hp : past <+: run)
    (hused : total.toNat ≤ (after k s past).store.usedOf k) {credential : String} {key : ApiKey}
    (hfound : (after k s past).store.findKey? credential = some key) (hid : key.id = k) :
    key.exhausted = true := by
  obtain ⟨only, honly, hquota⟩ := h.keysWithId hp
  have hkey := Store.eq_of_keysWithId honly (Store.mem_of_findKey? hfound) hid
  subst hkey
  rw [Store.usedOf_of_keysWithId honly, ← hquota, ← UInt64.le_iff_toNat_le] at hused
  rw [ApiKey.exhausted, ApiKey.hasTotalLimit, hquota, decide_eq_true htotal, Bool.true_and,
    decide_eq_true (hquota ▸ hused)]

end Metered

/-- What is used and open stays within the quota and one less than the requests that may be open at
once, unless more was used at the start. A concurrency limit bounds those as long as no slots are
released. Once the quota is used up, every request on the key is turned away. -/
theorem quota_bound (htotal : 0 < total) (h : Metered k total s run) (hmatched : Matched k s run) :
    (∀ most, 1 ≤ most → (∀ past, past <+: run → (after k s past).opened.length ≤ most) →
      ∀ past, past <+: run →
        (after k s past).store.usedOf k + (after k s past).opened.length ≤
          max (s.usedOf k) (total.toNat + most - 1)) ∧
    ((∀ past, past <+: run → (after k s past).opened.length ≤ 1) →
      ∀ past, past <+: run → (after k s past).store.usedOf k ≤ max (s.usedOf k) total.toNat) ∧
    (∀ limit, 0 < limit → Limited k limit s run → (∀ e ∈ run, e.op ≠ .releaseSlots k) →
      ∀ past, past <+: run →
        (after k s past).store.usedOf k ≤ max (s.usedOf k) (total.toNat + (limit.toNat - 1))) ∧
    (∀ early late, early ++ late <+: run →
      total.toNat ≤ (after k s early).store.usedOf k →
      ∀ credential key, (after k s (early ++ late)).store.findKey? credential = some key →
        key.id = k →
        ((after k s (early ++ late)).store.beginRequest credential).1 =
          .error (if key.enabled then .quotaExceeded else .keyDisabled)) := by
  refine ⟨?_, ?_, ?_, ?_⟩
  · intro most _ hmost past hp
    exact h.committed_le htotal hmatched hmost past hp
  · intro hmost past hp
    have hbound := h.committed_le htotal hmatched hmost past hp
    unfold committed at hbound
    omega
  · intro limit hlimit hlimited hrelease past hp
    have hmost : ∀ past, past <+: run → (after k s past).opened.length ≤ limit.toNat :=
      fun past hp => (slots_eq_add_length_opened hlimit hlimited hmatched hrelease past hp).2
    have hbound := h.committed_le htotal hmatched hmost past hp
    have hpos := UInt32.lt_iff_toNat_lt.mp hlimit
    unfold committed at hbound
    simp only [UInt32.toNat_zero] at hpos
    omega
  · intro early late hp hused credential key hfound hid
    have hstill := hused.trans (h.usedOf_mono hp)
    exact Store.beginRequest_exhausted hfound (h.exhausted htotal hp hstill hfound hid)

/-! ## Runs on a key with a quota -/

/-- A run whose operations keep the key and do not reset it. -/
theorem Metered.of_keepsKey
    (hquota : ∀ past, past <+: run →
      ((after k s past).store.keysWithId k).map ApiKey.totalLimit = [total])
    (hkeeps : ∀ e ∈ run, e.op.KeepsKey k) (hreset : ∀ e ∈ run, e.op ≠ .resetUsage k) :
    Metered k total s run := by
  refine ⟨hquota, ?_⟩
  intro past e hp hmay
  have he : e ∈ run := hp.subset (List.mem_append_right past (List.mem_singleton_self e))
  rcases hmay with hreplaced | hzeroed
  · exact absurd (hkeeps e he) hreplaced
  · exact absurd hzeroed (hreset e he)

/-- A key with a quota of two requests and room for two at a time. -/
def quotaKey : ApiKey :=
  { ApiKey.fresh "tk_quota" "quota" .epoch with
    id := "key_1", totalLimit := 2, concurrencyLimit := 2 }

/-- Two requests are open when the quota has one left. -/
def overshot : List Event :=
  [{ op := .beginRequest "tk_quota" },
    { op := .endRequestById "key_1" true, request := some 0 },
    { op := .beginRequest "tk_quota" },
    { op := .beginRequest "tk_quota" },
    { op := .updateKey "key_1" (KeyEdit.applyAll [.credential "tk_meter"]) },
    { op := .endRequest "tk_meter" true, request := some 1 },
    { op := .endRequestById "key_1" true, request := some 0 }]

/-- The used count reaches its bound, and the key is closed. -/
theorem quota_bound_overshot :
    Metered "key_1" 2 (.stocked [quotaKey]) overshot ∧
      Matched "key_1" (.stocked [quotaKey]) overshot ∧
      Limited "key_1" 2 (.stocked [quotaKey]) overshot ∧
      (after "key_1" (.stocked [quotaKey]) overshot).store.usedOf "key_1" = 3 ∧
      (after "key_1" (.stocked [quotaKey]) overshot).store.usedOf "key_1" ≤ max 0 (2 + (2 - 1)) ∧
      ((after "key_1" (.stocked [quotaKey]) overshot).store.beginRequest "tk_meter").1 =
        .error .quotaExceeded := by
  have hmetered : Metered "key_1" 2 (.stocked [quotaKey]) overshot := by
    refine .of_keepsKey (Run.forall_prefix_iff.mp (by decide +kernel)) ?_ ?_
    · simp only [overshot, List.forall_mem_cons, Operation.KeepsKey, true_and]
      exact ⟨fun _ key => ⟨_, by simp, rfl⟩, by simp⟩
    · simp [overshot]
  have hmatched : Matched "key_1" (.stocked [quotaKey]) overshot := by decide +kernel
  have hlimited : Limited "key_1" 2 (.stocked [quotaKey]) overshot := by decide +kernel
  have hused : (after "key_1" (.stocked [quotaKey]) overshot).store.usedOf "key_1" = 3 := by
    decide +kernel
  obtain ⟨-, -, hbound, hclosed⟩ := quota_bound (by decide) hmetered hmatched
  refine ⟨hmetered, hmatched, hlimited, hused, ?_, ?_⟩
  · exact hbound 2 (by decide) hlimited (by simp [overshot]) overshot List.prefix_rfl
  · have hstart : (2 : UInt64).toNat ≤
        (after "key_1" (.stocked [quotaKey]) overshot).store.usedOf "key_1" := by
      rw [hused]
      decide
    exact hclosed overshot [] (by simp) hstart "tk_meter" { quotaKey with
      credential := "tk_meter", usedCount := 3 } (by decide +kernel) rfl

/-- A key with a quota of one request and room for one. -/
def singleKey : ApiKey := { quotaKey with totalLimit := 1, concurrencyLimit := 1 }

/-- The slot of an open request is released, which lets in a second one. -/
def reclaimed : List Event :=
  [{ op := .beginRequest "tk_quota" },
    { op := .releaseSlots "key_1" },
    { op := .beginRequest "tk_quota" },
    { op := .endRequestById "key_1" true, request := some 0 },
    { op := .endRequestById "key_1" true, request := some 0 }]

/-- Both are charged to a quota of one, under a concurrency limit of one. -/
theorem quota_passed_by_reclaimed :
    Metered "key_1" 1 (.stocked [singleKey]) reclaimed ∧
      Matched "key_1" (.stocked [singleKey]) reclaimed ∧
      Limited "key_1" 1 (.stocked [singleKey]) reclaimed ∧
      (Store.stocked [singleKey]).usedOf "key_1" = 0 ∧
      (after "key_1" (.stocked [singleKey]) reclaimed).store.usedOf "key_1" = 2 ∧
      ¬ (after "key_1" (.stocked [singleKey]) reclaimed).store.usedOf "key_1" ≤ 1 + (1 - 1) := by
  have hmetered : Metered "key_1" 1 (.stocked [singleKey]) reclaimed := by
    refine .of_keepsKey (Run.forall_prefix_iff.mp (by decide +kernel)) ?_ ?_
    · simp [reclaimed, Operation.KeepsKey]
    · simp [reclaimed]
  exact ⟨hmetered, by decide +kernel⟩

end Traffic
end Turnstile
