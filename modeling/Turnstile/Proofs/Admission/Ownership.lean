import Turnstile.Proofs.Admission.Leak

/-! Who holds the slots of a key. The slots are counted, not handed out, so a completion under a
limit takes one away whether or not its own request reserved one. It does no harm as long as a slot
is there that was left behind, by a holder completed without a limit. Then every holder has its
slot, and no more of the recent requests are open than the limit allows. -/

namespace Turnstile.Traffic

/-- The open requests that reserved a slot which was not released since. -/
def holders (t : Traffic) : Nat := t.opened.countP (·.holdsSlot)

/-- The open requests admitted since the last release and the last change of the limit. -/
def recents (t : Traffic) : Nat := t.opened.countP (·.recent)

/-- The event names an open request that holds a slot. -/
def namesHolder (t : Traffic) (e : Event) : Bool :=
  (e.request.bind (t.opened[·]?)).any (·.holdsSlot)

/-- A holder is completed when the key has no limit. -/
def leavesSlot (k : String) (t : Traffic) (e : Event) : Bool :=
  e.op.move k t.store = .completion && t.namesHolder e && !decide (0 < t.store.limitOf k)

/-- A request that holds no slot is completed when the key has a limit. -/
def takesSlot (k : String) (t : Traffic) (e : Event) : Bool :=
  e.op.move k t.store = .completion && !t.namesHolder e && decide (0 < t.store.limitOf k)

def slotsLeft (k : String) (t : Traffic) (stretch : List Event) : Nat :=
  Run.tally (step k) (leavesSlot k) t stretch

def slotsTaken (k : String) (t : Traffic) (stretch : List Event) : Nat :=
  Run.tally (step k) (takesSlot k) t stretch

/-- In some stretch up to now, without a release, more slots were left than taken. -/
def HasSpare (k : String) (s : Store) (past : List Event) : Prop :=
  ∃ early late, early ++ late = past ∧ (∀ e ∈ late, e.op ≠ .releaseSlots k) ∧
    slotsTaken k (after k s early) late < slotsLeft k (after k s early) late

instance (k : String) (s : Store) (past : List Event) : Decidable (HasSpare k s past) :=
  decidable_of_iff _ Run.exists_split_iff

variable {k : String} {s : Store} {t : Traffic} {run past early late : List Event} {e : Event}

theorem countP_eraseIdx {α : Type} {p : α → Bool} {l : List α} {i : Nat} {a : α}
    (h : l[i]? = some a) : (l.eraseIdx i).countP p + (p a).toNat = l.countP p := by
  obtain ⟨hlt, ha⟩ := List.getElem?_eq_some_iff.mp h
  have hsplit : l = l.take i ++ a :: l.drop (i + 1) := by
    rw [← ha, List.getElem_cons_drop, List.take_append_drop]
  rw [List.eraseIdx_eq_take_drop_succ]
  conv_rhs => rw [hsplit]
  rw [List.countP_append, List.countP_append, List.countP_cons]
  cases p a <;> simp [Nat.add_assoc]

/-! ## Recent requests -/

/-- A recent request reserved a slot if the key has a limit, and then no more slots are reserved
than the limit allows. -/
structure Fresh (k : String) (t : Traffic) : Prop where
  holds : ∀ r ∈ t.opened, r.recent = true → r.holdsSlot = decide (0 < t.store.limitOf k)
  bounded : (∃ r ∈ t.opened, r.recent = true) → 0 < t.store.limitOf k →
    t.store.slots k ≤ (t.store.limitOf k).toNat

theorem Fresh.of_no_recent (h : ∀ r ∈ t.opened, r.recent = false) : Fresh k t := by
  refine ⟨?_, ?_⟩
  · intro r hr hrecent
    rw [h r hr] at hrecent
    cases hrecent
  · rintro ⟨r, hr, hrecent⟩
    rw [h r hr] at hrecent
    cases hrecent

/-- Fewer open requests and fewer slots under the same limit. -/
theorem Fresh.shrink {t' : Traffic} (h : Fresh k t) (hopened : t'.opened ⊆ t.opened)
    (hslots : t'.store.slots k ≤ t.store.slots k)
    (hlimit : t'.store.limitOf k = t.store.limitOf k) : Fresh k t' := by
  refine ⟨?_, ?_⟩
  · intro r hr hrecent
    rw [hlimit]
    exact h.holds r (hopened hr) hrecent
  · rintro ⟨r, hr, hrecent⟩ hpos
    rw [hlimit] at hpos ⊢
    exact hslots.trans (h.bounded ⟨r, hopened hr, hrecent⟩ hpos)

theorem opened_step_subset (h : e.op.move k t.store = .completion) :
    (t.step k e).opened ⊆ t.opened := by
  cases hi : e.request with
  | none => rw [opened_step_stray h hi]; exact List.Subset.refl _
  | some i => rw [opened_step_own h hi]; exact List.eraseIdx_subset

theorem Fresh.step (h : Fresh k t) (hslots : MovesSlots k t e) : Fresh k (t.step k e) := by
  cases hm : e.op.move k t.store with
  | admission =>
    obtain ⟨room, grown⟩ := hslots.admission hm
    have hsame : (t.step k e).store.limitOf k = t.store.limitOf k :=
      Store.limitOf_apply (by rw [hm]; exact Move.noConfusion)
    refine ⟨?_, ?_⟩
    · intro r hr hrecent
      rw [opened_step_admission hm] at hr
      rw [hsame]
      rcases List.mem_append.mp hr with hold | hnew
      · exact h.holds r hold hrecent
      · rw [List.mem_singleton.mp hnew]
    · intro _ hpos
      rw [hsame] at hpos
      have hroom := room hpos
      rw [grown, hsame, decide_eq_true hpos, Bool.toNat_true]
      exact hroom
  | completion =>
    refine h.shrink (opened_step_subset hm) ?_ ?_
    · rw [hslots.completion hm]
      exact Nat.sub_le _ _
    · exact Store.limitOf_apply (by rw [hm]; exact Move.noConfusion)
  | release =>
    refine .of_no_recent ?_
    rw [opened_step_release hm]
    simp
  | other =>
    -- After a change of the limit no open request is recent any more.
    by_cases hl : (t.step k e).store.limitOf k = t.store.limitOf k
    · refine h.shrink ?_ (Nat.le_of_eq (hslots.other hm)) hl
      rw [opened_step_same hm hl]
      exact List.Subset.refl _
    · refine .of_no_recent ?_
      rw [opened_step_relimited hm hl]
      simp

theorem fresh (h : StoredOnce k s run) : ∀ past, past <+: run → Fresh k (after k s past) := by
  refine Run.prefix_induction (.of_no_recent (by simp [after, Run.after])) ?_
  intro past e hp ih
  rw [after_concat]
  exact ih.step (movesSlots h hp)

/-- Under a limit the recent requests hold slots, of which there are no more than it allows. -/
theorem Fresh.recents_le (h : Fresh k t) (hslots : t.holders ≤ t.store.slots k)
    (hpos : 0 < t.store.limitOf k) : t.recents ≤ (t.store.limitOf k).toNat := by
  by_cases hsome : ∃ r ∈ t.opened, r.recent = true
  · have hmono : t.recents ≤ t.holders := by
      refine List.countP_mono_left ?_
      intro r hr hrecent
      rw [h.holds r hr hrecent]
      exact decide_eq_true hpos
    exact hmono.trans (hslots.trans (h.bounded hsome hpos))
  · have hzero : t.recents = 0 := by
      rw [recents, List.countP_eq_zero]
      intro r hr hrecent
      exact hsome ⟨r, hr, hrecent⟩
    rw [hzero]
    exact Nat.zero_le _

/-! ## Holders -/

theorem holders_step_admission (h : e.op.move k t.store = .admission) :
    (t.step k e).holders = t.holders + (decide (0 < t.store.limitOf k)).toNat := by
  rw [holders, opened_step_admission h, List.countP_append, holders]
  cases decide (0 < t.store.limitOf k) <;> rfl

theorem holders_step_completion (h : e.op.move k t.store = .completion)
    (hi : ∀ i ∈ e.request, i < t.opened.length) :
    (t.step k e).holders + (t.namesHolder e).toNat = t.holders := by
  cases he : e.request with
  | none =>
    rw [holders, opened_step_stray h he, namesHolder, he]
    rfl
  | some i =>
    have hlt := hi i he
    have hsome : t.opened[i]? = some t.opened[i] := List.getElem?_eq_getElem hlt
    rw [holders, opened_step_own h he, namesHolder, he, Option.bind_some, hsome, holders]
    exact countP_eraseIdx hsome

theorem holders_step_release (h : e.op = .releaseSlots k) : (t.step k e).holders = 0 := by
  rw [holders, opened_step_release (Operation.move_eq_release_iff.mpr h), List.countP_eq_zero]
  simp

theorem holders_step_other (h : e.op.move k t.store = .other) :
    (t.step k e).holders = t.holders := by
  by_cases hl : (t.step k e).store.limitOf k = t.store.limitOf k
  · rw [holders, opened_step_same h hl, holders]
  · rw [holders, opened_step_relimited h hl, List.countP_map, holders]
    rfl

/-! ## Slots that no request holds -/

/-- An event other than a release enters the slots beyond the holders as it says, unless it is a
completion when no slot is reserved. -/
theorem spare_ledger (h : MovesSlots k t e)
    (hi : e.op.move k t.store = .completion → ∀ i ∈ e.request, i < t.opened.length)
    (hop : e.op ≠ .releaseSlots k) :
    (t.store.slots k = 0 ∧ (t.step k e).store.slots k = 0 ∧
        (t.step k e).holders ≤ t.holders ∧ leavesSlot k t e = false) ∨
      (t.step k e).store.slots k + t.holders + (takesSlot k t e).toNat =
        t.store.slots k + (t.step k e).holders + (leavesSlot k t e).toNat := by
  cases hm : e.op.move k t.store with
  | admission =>
    rw [holders_step_admission hm, (h.admission hm).2]
    simp only [leavesSlot, takesSlot, hm, reduceCtorEq, decide_false, Bool.false_and,
      Bool.toNat_false]
    omega
  | completion =>
    have hholders := holders_step_completion hm (hi hm)
    rw [h.completion hm]
    simp only [leavesSlot, takesSlot, hm, decide_true, Bool.true_and]
    cases decide (0 < t.store.limitOf k) <;> cases hnames : t.namesHolder e <;>
      rw [hnames] at hholders <;>
      simp only [Bool.toNat_true, Bool.toNat_false, Bool.not_true, Bool.not_false,
        Bool.and_true, Bool.and_false, reduceCtorEq, and_false, and_true] at hholders ⊢ <;>
      omega
  | release => exact absurd (Operation.move_eq_release_iff.mp hm) hop
  | other =>
    rw [holders_step_other hm, h.other hm]
    simp [leavesSlot, takesSlot, hm]

theorem takesSlot_ne_release (h : takesSlot k t e = true) : e.op ≠ .releaseSlots k := by
  intro hop
  rw [takesSlot, Operation.move_eq_release_iff.mpr hop] at h
  simp at h

theorem leavesSlot_of_takesSlot (h : takesSlot k t e = true) : leavesSlot k t e = false := by
  simp only [takesSlot, Bool.and_eq_true, Bool.not_eq_true'] at h
  simp [leavesSlot, h.1.2]

theorem holders_step_takesSlot
    (hi : e.op.move k t.store = .completion → ∀ i ∈ e.request, i < t.opened.length)
    (h : takesSlot k t e = true) : (t.step k e).holders = t.holders := by
  simp only [takesSlot, Bool.and_eq_true, decide_eq_true_eq, Bool.not_eq_true'] at h
  have hholders := holders_step_completion h.1.1 (hi h.1.1)
  rw [← hholders, h.1.2]
  rfl

/-- A stretch in which more slots are left than taken ends with some that no request holds. -/
theorem slots_add_left_le (h : StoredOnce k s run) (hpaired : Paired k s run)
    (hp : early ++ late <+: run) (hrelease : ∀ e ∈ late, e.op ≠ .releaseSlots k) :
    (after k s early).store.slots k + (after k s (early ++ late)).holders +
        slotsLeft k (after k s early) late ≤
      (after k s (early ++ late)).store.slots k + (after k s early).holders +
        slotsTaken k (after k s early) late := by
  have hmoved : ∀ past e, past ++ [e] <+: run → ¬ e.op = .releaseSlots k →
      ((after k s past).store.slots k : Int) - (after k s past).holders +
          (leavesSlot k (after k s past) e).toNat ≤
        ((after k s past).step k e).store.slots k - ((after k s past).step k e).holders +
          (takesSlot k (after k s past) e).toNat := by
    intro past e hp hop
    rcases spare_ledger (movesSlots h hp) (hpaired _ e hp) hop with
      ⟨hzero, hzero', hfewer, hleaves⟩ | hledger
    · rw [hleaves, Bool.toNat_false]
      omega
    · omega
  have hbalance := Run.balance_le (step k) ⟨s, []⟩ (fun t => t.store.slots k - t.holders)
    (leavesSlot k) (takesSlot k) (·.op = .releaseSlots k) hmoved hp hrelease
  simp only [slotsLeft, slotsTaken, after]
  omega

/-- Where holders kept their slots, what is reserved beyond them was left in some stretch. -/
theorem exists_spare_stretch (hs : s.inFlight = []) (h : StoredOnce k s run)
    (hpaired : Paired k s run)
    (hkept : ∀ past, past <+: run → (after k s past).holders ≤ (after k s past).store.slots k) :
    ∀ past, past <+: run → ∃ early late, early ++ late = past ∧
      (∀ e ∈ late, e.op ≠ .releaseSlots k) ∧
      (after k s past).store.slots k + slotsTaken k (after k s early) late =
        (after k s past).holders + slotsLeft k (after k s early) late := by
  intro past hp
  have hmoved : ∀ past e, past ++ [e] <+: run →
      (((after k s past).step k e).store.slots k : Int) - ((after k s past).step k e).holders = 0 ∨
        ¬ e.op = .releaseSlots k ∧
          ((after k s past).step k e).store.slots k - ((after k s past).step k e).holders +
              (takesSlot k (after k s past) e).toNat =
            ((after k s past).store.slots k : Int) - (after k s past).holders +
              (leavesSlot k (after k s past) e).toNat := by
    intro past e hp
    have hpast := hkept past ((List.prefix_append past [e]).trans hp)
    have hslots := movesSlots h hp
    by_cases hop : e.op = .releaseSlots k
    · refine .inl ?_
      rw [hslots.release hop, holders_step_release hop]
      rfl
    · rcases spare_ledger hslots (hpaired past e hp) hop with
        ⟨hzero, hzero', hfewer, -⟩ | hledger
      · exact .inl (by omega)
      · exact .inr ⟨hop, by omega⟩
  have hstart : (s.slots k : Int) - (0 : Nat) = 0 := by
    rw [Store.slots_of_inFlight_nil hs]
    rfl
  obtain ⟨early, late, hsplit, hrelease, hbalance⟩ := Run.exists_stretch (step k) ⟨s, []⟩
    (fun t => t.store.slots k - t.holders) (leavesSlot k) (takesSlot k) (·.op = .releaseSlots k)
    hstart hmoved past hp
  refine ⟨early, late, hsplit, hrelease, ?_⟩
  simp only [slotsLeft, slotsTaken, after]
  omega

/-- Holders keep their slots over an event that takes none or finds one to spare. -/
theorem holders_le_slots_next (h : StoredOnce k s run) (hpaired : Paired k s run)
    (hp : past ++ [e] <+: run)
    (hbefore : ∀ early, early <+: past →
      (after k s early).holders ≤ (after k s early).store.slots k)
    (hspare : takesSlot k (after k s past) e = true →
      (after k s past).holders = 0 ∨ HasSpare k s past) :
    (after k s (past ++ [e])).holders ≤ (after k s (past ++ [e])).store.slots k := by
  have hpast := hbefore past List.prefix_rfl
  rw [after_concat]
  by_cases hop : e.op = .releaseSlots k
  · rw [holders_step_release hop]
    exact Nat.zero_le _
  · rcases spare_ledger (movesSlots h hp) (hpaired past e hp) hop with
      ⟨hnone, -, hfewer, -⟩ | hledger
    · omega
    · cases htakes : takesSlot k (after k s past) e with
      | false =>
        rw [htakes, Bool.toNat_false] at hledger
        omega
      | true =>
        have hsame := holders_step_takesSlot (hpaired past e hp) htakes
        rw [htakes, leavesSlot_of_takesSlot htakes, Bool.toNat_true, Bool.toNat_false] at hledger
        rcases hspare htakes with hzero | ⟨early, late, rfl, hrelease, hmore⟩
        · omega
        · have hearly := hbefore early (List.prefix_append early late)
          have hleft := slots_add_left_le h hpaired ((List.prefix_append _ [e]).trans hp) hrelease
          omega

/-- Every slot that a request holds stays reserved, and no more of the recent requests are open than
the limit of the key allows, exactly if each completion under a limit of a request that holds no
slot comes when no open request holds one, or after more slots were left than taken. -/
theorem holders_keep_slots_iff (hs : s.inFlight = []) (h : StoredOnce k s run)
    (hpaired : Paired k s run) :
    (∀ past, past <+: run →
      (after k s past).holders ≤ (after k s past).store.slots k ∧
        (0 < (after k s past).store.limitOf k →
          (after k s past).recents ≤ ((after k s past).store.limitOf k).toNat)) ↔
      ∀ past e, past ++ [e] <+: run → takesSlot k (after k s past) e = true →
        (after k s past).holders = 0 ∨ HasSpare k s past := by
  constructor
  · intro hboth past e hp htakes
    have hkept : ∀ past, past <+: run →
        (after k s past).holders ≤ (after k s past).store.slots k :=
      fun past hp => (hboth past hp).1
    have hpast := (List.prefix_append past [e]).trans hp
    obtain ⟨early, late, hsplit, hrelease, hspare⟩ :=
      exists_spare_stretch hs h hpaired hkept past hpast
    by_cases hzero : (after k s past).holders = 0
    · exact .inl hzero
    · refine .inr ⟨early, late, hsplit, hrelease, ?_⟩
      have hbefore := hkept _ hpast
      have hafter := hkept _ hp
      rw [after_concat] at hafter
      rcases spare_ledger (movesSlots h hp) (hpaired past e hp) (takesSlot_ne_release htakes) with
        ⟨hnone, -⟩ | hledger
      · omega
      · rw [htakes, leavesSlot_of_takesSlot htakes, Bool.toNat_true, Bool.toNat_false] at hledger
        omega
  · intro hspare
    -- What is to spare at the end of a stretch depends on its start, hence all the states before.
    have hkept : ∀ past, past <+: run → ∀ early, early <+: past →
        (after k s early).holders ≤ (after k s early).store.slots k := by
      refine Run.prefix_induction ?_ ?_
      · intro early hearly
        rw [List.prefix_nil.mp hearly]
        exact Nat.zero_le _
      · intro past e hp hbefore early hearly
        rcases List.prefix_concat_iff.mp hearly with rfl | hearly
        · exact holders_le_slots_next h hpaired hp hbefore (hspare past e hp)
        · exact hbefore early hearly
    intro past hp
    have hholders := hkept past hp past List.prefix_rfl
    exact ⟨hholders, (fresh h past hp).recents_le hholders⟩

/-- The first late completion meets the slot that a lifted limit left behind, the second one meets
no slot after a release. -/
def lateCompletions : List Event :=
  [{ op := .beginRequest "tk_door" },
    { op := setLimit 0 },
    { op := .endRequestById "key_1" true, request := some 0 },
    { op := .beginRequest "tk_door" },
    { op := setLimit 1 },
    { op := .endRequestById "key_1" true, request := some 0 },
    { op := .beginRequest "tk_door" },
    { op := .releaseSlots "key_1" },
    { op := .endRequestById "key_1" true, request := some 0 },
    { op := .beginRequest "tk_door" }]

theorem holders_keep_slots_lateCompletions :
    StoredOnce "key_1" (.stocked [doorKey]) lateCompletions ∧
      Paired "key_1" (.stocked [doorKey]) lateCompletions ∧
      ∀ past, past <+: lateCompletions →
        (after "key_1" (.stocked [doorKey]) past).holders ≤
            (after "key_1" (.stocked [doorKey]) past).store.slots "key_1" ∧
          (0 < (after "key_1" (.stocked [doorKey]) past).store.limitOf "key_1" →
            (after "key_1" (.stocked [doorKey]) past).recents ≤
              ((after "key_1" (.stocked [doorKey]) past).store.limitOf "key_1").toNat) := by
  have hstored : StoredOnce "key_1" (.stocked [doorKey]) lateCompletions := by decide +kernel
  have hpaired : Paired "key_1" (.stocked [doorKey]) lateCompletions := by decide +kernel
  refine ⟨hstored, hpaired, ?_⟩
  refine (holders_keep_slots_iff rfl hstored hpaired).mpr ?_
  exact Run.forall_event_iff.mp (by decide +kernel)

/-- The request that was admitted without a limit takes the slot of the one admitted under it. -/
def takenOver : List Event :=
  [{ op := setLimit 0 },
    { op := .beginRequest "tk_door" },
    { op := setLimit 1 },
    { op := .beginRequest "tk_door" },
    { op := .endRequestById "key_1" true, request := some 0 },
    { op := .beginRequest "tk_door" }]

/-- Two requests are open since a limit of one was set, and one slot is reserved for both. -/
theorem limit_passed_by_takenOver :
    StoredOnce "key_1" (.stocked [doorKey]) takenOver ∧
      Paired "key_1" (.stocked [doorKey]) takenOver ∧
      (after "key_1" (.stocked [doorKey]) takenOver).store.limitOf "key_1" = 1 ∧
      (after "key_1" (.stocked [doorKey]) takenOver).recents = 2 ∧
      (after "key_1" (.stocked [doorKey]) takenOver).holders = 2 ∧
      (after "key_1" (.stocked [doorKey]) takenOver).store.slots "key_1" = 1 := by
  decide +kernel

end Turnstile.Traffic
