import Turnstile.Proofs.Run
import Turnstile.Proofs.Store.Operation

/-! The requests of one key. A store counts the reserved slots of a key and nothing else; traffic
keeps beside the store the requests that were admitted on the key and are not completed yet, the
oldest first. An event is an operation of the store. If it completes a request of the key, it says
which one, and that request is closed by it; nothing that the store does depends on this. -/

namespace Turnstile

/-- A request that was admitted on the key and is not completed yet. -/
structure OpenRequest where
  /-- Admitted since the slots were last released and the limit last changed. -/
  recent : Bool
  /-- It reserved a slot, and the slots were not released since. -/
  holdsSlot : Bool
deriving DecidableEq

structure Event where
  op : Operation
  /-- The place of the completed request among the open ones. A completion on the key without one
  is that of a request which was admitted on another key. -/
  request : Option Nat := none

structure Traffic where
  store : Store
  opened : List OpenRequest

namespace Traffic

def step (k : String) (t : Traffic) (e : Event) : Traffic where
  store := t.store.apply e.op
  opened :=
    match e.op.move k t.store with
    | .admission => t.opened ++ [⟨true, 0 < t.store.limitOf k⟩]
    | .completion => e.request.elim t.opened t.opened.eraseIdx
    | .release => t.opened.map fun _ => ⟨false, false⟩
    | .other =>
      if (t.store.apply e.op).limitOf k = t.store.limitOf k then t.opened
      else t.opened.map fun r => { r with recent := false }

/-- What a run makes of a store on which no request is open. -/
def after (k : String) (s : Store) (run : List Event) : Traffic := Run.after (step k) ⟨s, []⟩ run

/-- In every state of the run, exactly one key is stored under the id. -/
def StoredOnce (k : String) (s : Store) (run : List Event) : Prop :=
  ∀ past, past <+: run → ((after k s past).store.keysWithId k).length = 1

/-- A completed request was open. -/
def Paired (k : String) (s : Store) (run : List Event) : Prop :=
  ∀ past e, past ++ [e] <+: run → e.op.move k (after k s past).store = .completion →
    ∀ i ∈ e.request, i < (after k s past).opened.length

instance (k : String) (s : Store) (run : List Event) : Decidable (StoredOnce k s run) :=
  decidable_of_iff _ Run.forall_prefix_iff

instance (k : String) (s : Store) (run : List Event) : Decidable (Paired k s run) :=
  decidable_of_iff _ Run.forall_event_iff

variable {k : String} {s : Store} {t : Traffic} {e : Event} {run past : List Event}

theorem after_concat : after k s (past ++ [e]) = (after k s past).step k e :=
  Run.after_concat past e

theorem keysWithId_of_storedOnce (h : StoredOnce k s run) (hp : past <+: run) :
    ∃ key, (after k s past).store.keysWithId k = [key] :=
  List.length_eq_one_iff.mp (h past hp)

/-! ## The open requests after one event -/

theorem opened_step_admission (h : e.op.move k t.store = .admission) :
    (t.step k e).opened = t.opened ++ [⟨true, 0 < t.store.limitOf k⟩] := by
  simp only [step, h]

theorem opened_step_own {i : Nat} (h : e.op.move k t.store = .completion)
    (hi : e.request = some i) : (t.step k e).opened = t.opened.eraseIdx i := by
  simp only [step, h, hi, Option.elim_some]

theorem opened_step_stray (h : e.op.move k t.store = .completion) (hi : e.request = none) :
    (t.step k e).opened = t.opened := by
  simp only [step, h, hi, Option.elim_none]

theorem opened_step_release (h : e.op.move k t.store = .release) :
    (t.step k e).opened = t.opened.map fun _ => ⟨false, false⟩ := by
  simp only [step, h]

theorem opened_step_same (h : e.op.move k t.store = .other)
    (hl : (t.step k e).store.limitOf k = t.store.limitOf k) : (t.step k e).opened = t.opened := by
  simp only [step] at hl ⊢
  simp only [h, if_pos hl]

theorem opened_step_relimited (h : e.op.move k t.store = .other)
    (hl : (t.step k e).store.limitOf k ≠ t.store.limitOf k) :
    (t.step k e).opened = t.opened.map fun r => { r with recent := false } := by
  simp only [step] at hl ⊢
  simp only [h, if_neg hl]

theorem length_opened_step_other (h : e.op.move k t.store = .other) :
    (t.step k e).opened.length = t.opened.length := by
  by_cases hl : (t.step k e).store.limitOf k = t.store.limitOf k
  · rw [opened_step_same h hl]
  · rw [opened_step_relimited h hl, List.length_map]

theorem length_opened_step_own {i : Nat} (h : e.op.move k t.store = .completion)
    (hi : e.request = some i) (hlt : i < t.opened.length) :
    (t.step k e).opened.length + 1 = t.opened.length := by
  rw [opened_step_own h hi, List.length_eraseIdx_of_lt hlt]
  omega

/-! ## The slots after one event -/

/-- The event changes the slots of the key as its move says. -/
def MovesSlots (k : String) (t : Traffic) (e : Event) : Prop :=
  (e.op.move k t.store).Slots (t.store.limitOf k) (t.store.slots k)
    ((t.step k e).store.slots k)

theorem movesSlots (h : StoredOnce k s run) (hp : past ++ [e] <+: run) :
    MovesSlots k (after k s past) e := by
  obtain ⟨key, hkey⟩ := keysWithId_of_storedOnce h ((List.prefix_append past [e]).trans hp)
  obtain ⟨key', hkey'⟩ := keysWithId_of_storedOnce h hp
  refine Store.slots_apply hkey ?_
  rw [after_concat] at hkey'
  rw [show (after k s past).store.apply e.op = ((after k s past).step k e).store from rfl, hkey']
  exact List.cons_ne_nil _ _

namespace MovesSlots

theorem admission (h : MovesSlots k t e) (hm : e.op.move k t.store = .admission) :
    (0 < t.store.limitOf k → t.store.slots k < (t.store.limitOf k).toNat) ∧
      (t.step k e).store.slots k =
        t.store.slots k + (decide (0 < t.store.limitOf k)).toNat := by
  rw [MovesSlots, hm] at h
  cases h with
  | admission room grown => exact ⟨room, grown⟩

theorem completion (h : MovesSlots k t e) (hm : e.op.move k t.store = .completion) :
    (t.step k e).store.slots k =
      t.store.slots k - (decide (0 < t.store.limitOf k)).toNat := by
  rw [MovesSlots, hm] at h
  cases h with
  | completion shrunk => exact shrunk

theorem release (h : MovesSlots k t e) (hop : e.op = .releaseSlots k) :
    (t.step k e).store.slots k = 0 := by
  rw [MovesSlots, Operation.move_eq_release_iff.mpr hop] at h
  cases h with
  | release emptied => exact emptied

theorem other (h : MovesSlots k t e) (hm : e.op.move k t.store = .other) :
    (t.step k e).store.slots k = t.store.slots k := by
  rw [MovesSlots, hm] at h
  cases h with
  | other same => exact same

end MovesSlots

end Traffic
end Turnstile
