import Turnstile.Proofs.Admission.Ceiling

/-! Leaked slots. Whether a request reserves a slot is decided by the limit at its admission, and
whether it gives one back by the limit at its completion. A request that was admitted under a limit
and is completed when the key has none leaves its slot behind. The slots of a key exceed its open
requests exactly after a stretch of the run in which more requests were completed without a limit
than there was cause for: those open before it, those admitted in it without a limit, and the
completions from elsewhere that took a slot away. -/

namespace Turnstile

namespace Store

/-- A key on which no slot is reserved has one free. -/
theorem beginRequest_ne_concurrencyExceeded {s : Store} {credential : String} {key : ApiKey}
    (h : s.findKey? credential = some key) (hslots : s.slots key.id = 0) :
    (s.beginRequest credential).1 ≠ .error .concurrencyExceeded := by
  rw [Ne, beginRequest_concurrencyExceeded_iff h, hslots]
  rintro ⟨-, -, hlimit, hfull⟩
  have hpos : 0 < key.concurrencyLimit.toNat :=
    UInt32.lt_iff_toNat_lt.mp (of_decide_eq_true hlimit)
  omega

theorem slots_of_inFlight_nil {s : Store} {k : String} (hs : s.inFlight = []) : s.slots k = 0 := by
  rw [slots, inFlightOf, hs]
  rfl

end Store

namespace Traffic

/-! ## Admissions and completions in a stretch -/

def admits (k : String) (limited : Bool) (t : Traffic) (e : Event) : Bool :=
  e.op.move k t.store = .admission && decide (0 < t.store.limitOf k) == limited

/-- A completion of an open request is an own one. -/
def completes (k : String) (own limited : Bool) (t : Traffic) (e : Event) : Bool :=
  e.op.move k t.store = .completion && e.request.isSome == own &&
    decide (0 < t.store.limitOf k) == limited

/-- A completion when the key has a limit, of whichever request. -/
def givesBack (k : String) (t : Traffic) (e : Event) : Bool :=
  e.op.move k t.store = .completion && decide (0 < t.store.limitOf k)

/-- The requests that a stretch admits on the key, with or without a limit on it. -/
def admissions (k : String) (limited : Bool) (t : Traffic) (stretch : List Event) : Nat :=
  Run.tally (step k) (admits k limited) t stretch

def completions (k : String) (own limited : Bool) (t : Traffic) (stretch : List Event) : Nat :=
  Run.tally (step k) (completes k own limited) t stretch

variable {k : String} {s : Store} {t : Traffic} {run past early late : List Event} {e : Event}

theorem tally_givesBack (stretch : List Event) :
    Run.tally (step k) (givesBack k) t stretch =
      completions k true true t stretch + completions k false true t stretch := by
  refine Run.tally_eq_add ?_ t stretch
  intro t e
  simp only [givesBack, completes]
  cases decide (0 < t.store.limitOf k) <;> cases e.request.isSome <;> simp

/-! ## One event -/

/-- An event enters the slots as it says, unless it leaves none. Then it was a release, or it gave
back a slot where none was. -/
theorem slots_ledger (h : MovesSlots k t e) :
    (t.step k e).store.slots k + (givesBack k t e).toNat =
        t.store.slots k + (admits k true t e).toNat ∨
      (t.step k e).store.slots k = 0 ∧
        (e.op = .releaseSlots k ∨
          t.store.slots k + (admits k true t e).toNat ≤ (givesBack k t e).toNat) := by
  cases hm : e.op.move k t.store with
  | admission =>
    left
    simp [admits, givesBack, hm, (h.admission hm).2]
  | completion =>
    -- With a limit the slots go down by one unless there are none; without, they stay.
    rw [h.completion hm]
    simp only [admits, givesBack, hm, reduceCtorEq, decide_false, decide_true, Bool.false_and,
      Bool.true_and, Bool.toNat_false]
    omega
  | release =>
    have hop := Operation.move_eq_release_iff.mp hm
    exact .inr ⟨h.release hop, .inl hop⟩
  | other =>
    left
    simp [admits, givesBack, hm, h.other hm]

/-- A request is open from its admission to its completion. -/
theorem opened_ledger
    (h : e.op.move k t.store = .completion → ∀ i ∈ e.request, i < t.opened.length) :
    (t.step k e).opened.length + (completes k true true t e).toNat +
        (completes k true false t e).toNat =
      t.opened.length + (admits k true t e).toNat + (admits k false t e).toNat := by
  cases hm : e.op.move k t.store with
  | admission =>
    rw [opened_step_admission hm, List.length_append, List.length_singleton]
    cases hlimit : decide (0 < t.store.limitOf k) <;> simp [admits, completes, hm, hlimit]
  | completion =>
    cases hi : e.request with
    | none =>
      rw [opened_step_stray hm hi]
      simp [admits, completes, hm, hi]
    | some i =>
      rw [← length_opened_step_own hm hi (h hm i hi)]
      cases hlimit : decide (0 < t.store.limitOf k) <;>
        simp [admits, completes, hm, hi, hlimit]
  | release =>
    rw [opened_step_release hm, List.length_map]
    simp [admits, completes, hm]
  | other =>
    rw [length_opened_step_other hm]
    simp [admits, completes, hm]

/-! ## A stretch without a release -/

theorem opened_add_completions (hpaired : Paired k s run) (hp : early ++ late <+: run) :
    (after k s (early ++ late)).opened.length + completions k true true (after k s early) late +
        completions k true false (after k s early) late =
      (after k s early).opened.length + admissions k true (after k s early) late +
        admissions k false (after k s early) late := by
  induction late using List.reverseRecOn with
  | nil => simp [completions, admissions, Run.tally]
  | append_singleton late e ih =>
    rw [← List.append_assoc] at hp ⊢
    have hbefore := ih ((List.prefix_append _ [e]).trans hp)
    have hledger := opened_ledger (hpaired _ e hp)
    simp only [completions, admissions, after, Run.tally_after_concat, Run.after_concat]
      at hbefore hledger ⊢
    omega

/-- What is given back in a stretch covers what its end has less than its start. -/
theorem slots_add_admissions_le (h : StoredOnce k s run) (hp : early ++ late <+: run)
    (hrelease : ∀ e ∈ late, e.op ≠ .releaseSlots k) :
    (after k s early).store.slots k + admissions k true (after k s early) late ≤
      (after k s (early ++ late)).store.slots k + completions k true true (after k s early) late +
        completions k false true (after k s early) late := by
  have hmoved : ∀ past e, past ++ [e] <+: run → ¬ e.op = .releaseSlots k →
      ((after k s past).store.slots k : Int) + (admits k true (after k s past) e).toNat ≤
        ((after k s past).step k e).store.slots k + (givesBack k (after k s past) e).toNat := by
    intro past e hp hop
    rcases slots_ledger (movesSlots h hp) with hledger | ⟨-, hrelease | hledger⟩
    · omega
    · exact absurd hrelease hop
    · omega
  have hbalance := Run.balance_le (step k) ⟨s, []⟩ (·.store.slots k) (admits k true)
    (givesBack k) (·.op = .releaseSlots k) hmoved hp hrelease
  rw [tally_givesBack] at hbalance
  simp only [admissions, after]
  omega

/-- From where no slot was reserved last, the slots are those of the requests admitted since that
were not given back. -/
theorem exists_stretch (hs : s.inFlight = []) (h : StoredOnce k s run) :
    ∀ past, past <+: run → ∃ early late, early ++ late = past ∧
      (∀ e ∈ late, e.op ≠ .releaseSlots k) ∧
      (after k s past).store.slots k + completions k true true (after k s early) late +
          completions k false true (after k s early) late =
        admissions k true (after k s early) late := by
  intro past hp
  have hmoved : ∀ past e, past ++ [e] <+: run →
      (((after k s past).step k e).store.slots k : Int) = 0 ∨ ¬ e.op = .releaseSlots k ∧
        ((after k s past).step k e).store.slots k + (givesBack k (after k s past) e).toNat =
          ((after k s past).store.slots k : Int) + (admits k true (after k s past) e).toNat := by
    intro past e hp
    have hslots := movesSlots h hp
    by_cases hop : e.op = .releaseSlots k
    · exact .inl (congrArg Nat.cast (hslots.release hop))
    · rcases slots_ledger hslots with hledger | ⟨hzero, -⟩
      · exact .inr ⟨hop, by omega⟩
      · exact .inl (congrArg Nat.cast hzero)
  have hstart : (s.slots k : Int) = 0 := congrArg Nat.cast (Store.slots_of_inFlight_nil hs)
  obtain ⟨early, late, hsplit, hrelease, hbalance⟩ := Run.exists_stretch (step k) ⟨s, []⟩
    (·.store.slots k) (admits k true) (givesBack k) (·.op = .releaseSlots k) hstart hmoved past hp
  refine ⟨early, late, hsplit, hrelease, ?_⟩
  rw [tally_givesBack] at hbalance
  simp only [admissions, after]
  omega

/-- No more slots are reserved than requests are open, so that a key with none open admits. -/
def NoLeak (k : String) (t : Traffic) : Prop :=
  t.store.slots k ≤ t.opened.length ∧
    (t.opened = [] → t.store.slots k = 0 ∧
      ∀ credential key, t.store.findKey? credential = some key → key.id = k →
        (t.store.beginRequest credential).1 ≠ .error .concurrencyExceeded)

theorem noLeak_of_slots_le {t : Traffic} (h : t.store.slots k ≤ t.opened.length) : NoLeak k t := by
  refine ⟨h, ?_⟩
  intro hnone
  rw [hnone] at h
  have hzero : t.store.slots k = 0 := Nat.le_zero.mp h
  refine ⟨hzero, ?_⟩
  intro credential key hfound hid
  refine Store.beginRequest_ne_concurrencyExceeded hfound ?_
  rw [hid]
  exact hzero

/-- No slot is leaked exactly if no stretch up to now, without a release, completes more open
requests without a limit than were open at its start, or admitted in it without a limit, or than
slots were taken by completions from elsewhere. -/
theorem noLeak_iff (hs : s.inFlight = []) (h : StoredOnce k s run) (hpaired : Paired k s run) :
    ∀ past, past <+: run →
      (NoLeak k (after k s past) ↔
        ∀ early late, early ++ late = past → (∀ e ∈ late, e.op ≠ .releaseSlots k) →
          completions k true false (after k s early) late ≤
            (after k s early).opened.length + admissions k false (after k s early) late +
              completions k false true (after k s early) late) := by
  intro past hp
  constructor
  · rintro ⟨hle, -⟩ early late rfl hrelease
    have hslots := slots_add_admissions_le h hp hrelease
    have hopened := opened_add_completions hpaired hp
    omega
  · intro hstretch
    obtain ⟨early, late, rfl, hrelease, hslots⟩ := exists_stretch hs h past hp
    have hopened := opened_add_completions hpaired hp
    have hbound := hstretch early late rfl hrelease
    refine noLeak_of_slots_le ?_
    omega

def setLimit (limit : UInt32) : Operation :=
  .updateKey "key_1" (KeyEdit.applyAll [.concurrencyLimit limit])

/-- The slot of the request that is completed without a limit is given back by the one that was
admitted without. -/
def exchanged : List Event :=
  [{ op := .beginRequest "tk_door" },
    { op := setLimit 0 },
    { op := .beginRequest "tk_door" },
    { op := .endRequestById "key_1" true, request := some 0 },
    { op := setLimit 1 },
    { op := .endRequestById "key_1" true, request := some 0 }]

theorem noLeak_exchanged :
    StoredOnce "key_1" (.stocked [doorKey]) exchanged ∧
      Paired "key_1" (.stocked [doorKey]) exchanged ∧
      NoLeak "key_1" (after "key_1" (.stocked [doorKey]) exchanged) := by
  have hstored : StoredOnce "key_1" (.stocked [doorKey]) exchanged := by decide +kernel
  have hpaired : Paired "key_1" (.stocked [doorKey]) exchanged := by decide +kernel
  refine ⟨hstored, hpaired, ?_⟩
  refine (noLeak_iff rfl hstored hpaired exchanged List.prefix_rfl).mpr ?_
  exact Run.forall_split_iff.mp (by decide +kernel)

/-- A request is open while the limit of the key is taken away and is completed before it is
back. -/
def lifted : List Event :=
  [{ op := setLimit 1 },
    { op := .beginRequest "tk_door" },
    { op := setLimit 0 },
    { op := .endRequestById "key_1" true, request := some 0 },
    { op := setLimit 1 }]

/-- No request is open, and none is admitted. -/
theorem slot_left_by_lifted :
    StoredOnce "key_1" (.stocked [doorKey]) lifted ∧ Paired "key_1" (.stocked [doorKey]) lifted ∧
      (after "key_1" (.stocked [doorKey]) lifted).opened = [] ∧
      (after "key_1" (.stocked [doorKey]) lifted).store.slots "key_1" = 1 ∧
      ((after "key_1" (.stocked [doorKey]) lifted).store.beginRequest "tk_door").1 =
        .error .concurrencyExceeded := by
  decide +kernel

end Traffic
end Turnstile
