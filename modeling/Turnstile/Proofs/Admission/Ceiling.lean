import Turnstile.Proofs.Admission.Traffic

/-! The concurrency limit of a key. While the limit of a key stands and its slots are not released,
the reserved slots are the open requests, however the key is changed in between, and the limit is
never passed: a request is turned away exactly when as many are open as the limit allows. -/

namespace Turnstile

namespace Store

variable {s : Store} {credential : String} {key : ApiKey}

/-- The answer to a request on a key, check by check. -/
theorem beginRequest_answer (h : s.findKey? credential = some key) :
    (s.beginRequest credential).1 =
      if key.enabled = false then .error .keyDisabled
      else if key.exhausted then .error .quotaExceeded
      else if key.hasConcurrencyLimit ∧ key.concurrencyLimit ≤ s.inFlight.count key.id then
        .error .concurrencyExceeded
      else .ok key := by
  rw [beginRequest_eq, h]
  dsimp only [admission, denial?]
  split_ifs <;> rfl

theorem beginRequest_ok_iff (h : s.findKey? credential = some key) :
    (s.beginRequest credential).1 = .ok key ↔
      key.enabled = true ∧ key.exhausted = false ∧
        (key.hasConcurrencyLimit = true → s.slots key.id < key.concurrencyLimit.toNat) := by
  have hle := UInt32.le_iff_toNat_le (a := key.concurrencyLimit) (b := s.inFlight.count key.id)
  rw [beginRequest_answer h, slots, inFlightOf]
  cases henabled : key.enabled <;> cases hquota : key.exhausted <;>
    cases hlimit : key.hasConcurrencyLimit <;> simp [hle]

theorem beginRequest_concurrencyExceeded_iff (h : s.findKey? credential = some key) :
    (s.beginRequest credential).1 = .error .concurrencyExceeded ↔
      key.enabled = true ∧ key.exhausted = false ∧
        key.hasConcurrencyLimit = true ∧ key.concurrencyLimit.toNat ≤ s.slots key.id := by
  have hle := UInt32.le_iff_toNat_le (a := key.concurrencyLimit) (b := s.inFlight.count key.id)
  rw [beginRequest_answer h, slots, inFlightOf]
  cases henabled : key.enabled <;> cases hquota : key.exhausted <;>
    cases hlimit : key.hasConcurrencyLimit <;> simp [hle]

end Store

namespace Traffic

variable {k : String} {s : Store} {run past : List Event} {limit : UInt32}

/-- In every state of the run exactly one key is stored under the id, with this limit. -/
def Limited (k : String) (limit : UInt32) (s : Store) (run : List Event) : Prop :=
  ∀ past, past <+: run →
    ((after k s past).store.keysWithId k).map ApiKey.concurrencyLimit = [limit]

/-- Every completion on the key is that of an open request. -/
def Matched (k : String) (s : Store) (run : List Event) : Prop :=
  ∀ past e, past ++ [e] <+: run → e.op.move k (after k s past).store = .completion →
    ∃ i ∈ e.request, i < (after k s past).opened.length

instance (k : String) (limit : UInt32) (s : Store) (run : List Event) :
    Decidable (Limited k limit s run) :=
  decidable_of_iff _ Run.forall_prefix_iff

instance (k : String) (s : Store) (run : List Event) : Decidable (Matched k s run) :=
  decidable_of_iff _ Run.forall_event_iff

theorem Limited.storedOnce (h : Limited k limit s run) : StoredOnce k s run := by
  intro past hp
  have hlength := congrArg List.length (h past hp)
  rwa [List.length_map] at hlength

theorem Limited.limitOf (h : Limited k limit s run) (hp : past <+: run) :
    (after k s past).store.limitOf k = limit := by
  obtain ⟨key, hkey⟩ := keysWithId_of_storedOnce h.storedOnce hp
  have hlimit := h past hp
  rw [hkey] at hlimit
  rw [Store.limitOf_of_keysWithId hkey]
  exact List.singleton_injective hlimit

/-- Each event moves the slots and the open requests together, and none of them over the limit. -/
theorem slots_eq_add_length_opened (hlimit : 0 < limit) (h : Limited k limit s run)
    (hmatched : Matched k s run) (hrelease : ∀ e ∈ run, e.op ≠ .releaseSlots k) :
    ∀ past, past <+: run →
      (after k s past).store.slots k = s.slots k + (after k s past).opened.length ∧
        (after k s past).opened.length ≤ limit.toNat := by
  refine Run.prefix_induction ⟨rfl, Nat.zero_le _⟩ ?_
  rintro past e hp ⟨ihslots, ihlimit⟩
  have hslots := movesSlots h.storedOnce hp
  have hstands := h.limitOf ((List.prefix_append past [e]).trans hp)
  rw [after_concat]
  -- The limit stands, so every admission reserves a slot and every completion gives one back.
  cases hm : e.op.move k (after k s past).store with
  | admission =>
    obtain ⟨room, grown⟩ := hslots.admission hm
    rw [hstands] at room grown
    have hroom := room hlimit
    rw [opened_step_admission hm, List.length_append, List.length_singleton, grown,
      decide_eq_true hlimit, Bool.toNat_true]
    omega
  | completion =>
    have hshrunk := hslots.completion hm
    obtain ⟨i, hi, hlt⟩ := hmatched past e hp hm
    have hlength := length_opened_step_own hm hi hlt
    rw [hshrunk, hstands, decide_eq_true hlimit, Bool.toNat_true]
    omega
  | release =>
    have he : e ∈ run := hp.subset (List.mem_append_right past (List.mem_singleton_self e))
    exact absurd (Operation.move_eq_release_iff.mp hm) (hrelease e he)
  | other =>
    rw [length_opened_step_other hm, hslots.other hm]
    exact ⟨ihslots, ihlimit⟩

theorem slots_eq_length_opened (hs : s.inFlight = []) (hlimit : 0 < limit)
    (h : Limited k limit s run) (hmatched : Matched k s run)
    (hrelease : ∀ e ∈ run, e.op ≠ .releaseSlots k) :
    ∀ past, past <+: run →
      (after k s past).store.slots k = (after k s past).opened.length ∧
        (after k s past).opened.length ≤ limit.toNat := by
  intro past hp
  have hzero : s.slots k = 0 := by
    rw [Store.slots, Store.inFlightOf, hs]
    rfl
  obtain ⟨hslots, hle⟩ := slots_eq_add_length_opened hlimit h hmatched hrelease past hp
  exact ⟨by omega, hle⟩

/-- Under a standing limit, the slots are the open requests and never more than the limit. A
request on an enabled key with quota left is admitted while fewer are open than that, and turned
away for its concurrency when as many are. -/
theorem limit_exact (hs : s.inFlight = []) (hlimit : 0 < limit) (h : Limited k limit s run)
    (hmatched : Matched k s run) (hrelease : ∀ e ∈ run, e.op ≠ .releaseSlots k) :
    ∀ past, past <+: run →
      (after k s past).store.slots k = (after k s past).opened.length ∧
      (after k s past).opened.length ≤ limit.toNat ∧
      ∀ credential key, (after k s past).store.findKey? credential = some key → key.id = k →
        (((after k s past).store.beginRequest credential).1 = .ok key ↔
          key.enabled = true ∧ key.exhausted = false ∧
            (after k s past).opened.length < limit.toNat) ∧
        (((after k s past).store.beginRequest credential).1 = .error .concurrencyExceeded ↔
          key.enabled = true ∧ key.exhausted = false ∧
            (after k s past).opened.length = limit.toNat) := by
  intro past hp
  obtain ⟨hslots, hle⟩ := slots_eq_length_opened hs hlimit h hmatched hrelease past hp
  refine ⟨hslots, hle, ?_⟩
  intro credential key hfound hid
  obtain ⟨only, honly⟩ := keysWithId_of_storedOnce h.storedOnce hp
  have hkey : key = only := Store.eq_of_keysWithId honly (Store.mem_of_findKey? hfound) hid
  have hkl : key.concurrencyLimit = limit := by
    rw [hkey, ← Store.limitOf_of_keysWithId honly]
    exact h.limitOf hp
  have hhas : key.hasConcurrencyLimit = true := by
    rw [ApiKey.hasConcurrencyLimit, hkl]
    exact decide_eq_true hlimit
  rw [Store.beginRequest_ok_iff hfound, Store.beginRequest_concurrencyExceeded_iff hfound, hid,
    hslots, hkl]
  refine ⟨by simp only [hhas, forall_const], ?_⟩
  have hfull : limit.toNat ≤ (after k s past).opened.length ↔
      (after k s past).opened.length = limit.toNat := by omega
  simp only [hhas, true_and, hfull]

/-- A key with room for two requests. -/
def doorKey : ApiKey :=
  { ApiKey.fresh "tk_door" "door" .epoch with id := "key_1", concurrencyLimit := 2 }

/-- The key is full, changes its credential, closes and opens again while requests are open. -/
def crowded : List Event :=
  [{ op := .beginRequest "tk_door" },
    { op := .beginRequest " tk_door " },
    { op := .beginRequest "tk_door" },
    { op := .updateKey "key_1" (KeyEdit.applyAll [.credential "tk_gate", .enabled false]) },
    { op := .endRequestById "key_1" true, request := some 1 },
    { op := .beginRequest "tk_gate" },
    { op := .upsertKey "key_2" .epoch { doorKey with credential := "tk_post" } },
    { op := .beginRequest "tk_post" },
    { op := .endRequest "tk_post" false, request := some 0 },
    { op := .resetUsage "key_1" },
    { op := .beginRequest "tk_post" }]

/-- In the end two requests are open, so that one more is turned away. -/
theorem limit_exact_crowded :
    Limited "key_1" 2 (.stocked [doorKey]) crowded ∧ Matched "key_1" (.stocked [doorKey]) crowded ∧
      (∀ e ∈ crowded, e.op ≠ .releaseSlots "key_1") ∧
      (after "key_1" (.stocked [doorKey]) crowded).store.slots "key_1" = 2 ∧
      ((after "key_1" (.stocked [doorKey]) crowded).store.beginRequest "tk_post").1 =
        .error .concurrencyExceeded := by
  have hlimited : Limited "key_1" 2 (.stocked [doorKey]) crowded := by decide +kernel
  have hmatched : Matched "key_1" (.stocked [doorKey]) crowded := by decide +kernel
  have hrelease : ∀ e ∈ crowded, e.op ≠ .releaseSlots "key_1" := by decide
  have hopened : (after "key_1" (.stocked [doorKey]) crowded).opened.length = 2 := by decide +kernel
  obtain ⟨hslots, -, hanswer⟩ := limit_exact rfl (by decide) hlimited hmatched hrelease crowded
    List.prefix_rfl
  refine ⟨hlimited, hmatched, hrelease, hslots.trans hopened, ?_⟩
  refine (hanswer "tk_post" { doorKey with credential := "tk_post" } ?_ rfl).2.mpr ?_
  · decide +kernel
  · exact ⟨rfl, rfl, hopened⟩

end Traffic
end Turnstile
