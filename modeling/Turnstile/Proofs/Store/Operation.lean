import Turnstile.Store.Admission
import Turnstile.Store.File
import Turnstile.Store.Login
import Turnstile.Proofs.Store.InFlight
import Turnstile.Proofs.Store.Keys

/-! The operations of a store as data, and what one of them does to the slots of a key. An operation
is atomic, so what any number of clients do to a store is a list of operations. Questions are left
out: they have no effect. -/

namespace Turnstile

/-- An operation, with all that it is given from outside. -/
inductive Operation where
  | load (files : FileTree) (now : Moment)
  | save (files : FileTree) (now : Moment) (tag : String)
  | setPath (path : String)
  | upsertUser (freshId : String) (now : Moment) (user : User)
  | updateUser (id : String) (patch : User → User)
  | deleteUser (id : String)
  | hashPassword (hasher : Hasher) (salt : List UInt8) (password : String)
  | authenticate (hasher : Hasher) (salt : List UInt8) (username password : String)
  | upsertKey (freshId : String) (now : Moment) (key : ApiKey)
  | updateKey (id : String) (patch : ApiKey → ApiKey)
  | deleteKey (id : String)
  | resetUsage (id : String)
  | beginRequest (credential : String)
  | endRequest (credential : String) (counted : Bool)
  | endRequestById (id : String) (counted : Bool)
  | releaseSlots (id : String)

instance (op : Operation) (k : String) : Decidable (op = .releaseSlots k) :=
  match op with
  | .releaseSlots id => decidable_of_iff (id = k) (by rw [Operation.releaseSlots.injEq])
  | .load .. | .save .. | .setPath .. | .upsertUser .. | .updateUser .. | .deleteUser ..
  | .hashPassword .. | .authenticate .. | .upsertKey .. | .updateKey .. | .deleteKey ..
  | .resetUsage .. | .beginRequest .. | .endRequest .. | .endRequestById .. =>
    isFalse Operation.noConfusion

namespace Store

/-- The state after an operation, whether it succeeds or fails. -/
def apply (s : Store) : Operation → Store
  | .load files now => (s.load files now).2
  | .save _ _ _ => s
  | .setPath path => s.setPath path
  | .upsertUser freshId now user => (s.upsertUser freshId now user).2
  | .updateUser id patch => (s.updateUser id patch).2
  | .deleteUser id => (s.deleteUser id).2
  | .hashPassword hasher salt password => (s.hashPassword hasher salt password).2
  | .authenticate hasher salt username password =>
    (s.authenticate hasher salt username password).2
  | .upsertKey freshId now key => (s.upsertKey freshId now key).2
  | .updateKey id patch => (s.updateKey id patch).2
  | .deleteKey id => (s.deleteKey id).2
  | .resetUsage id => (s.resetUsage id).2
  | .beginRequest credential => (s.beginRequest credential).2
  | .endRequest credential counted => (s.endRequest credential counted).2
  | .endRequestById id counted => (s.endRequestById id counted).2
  | .releaseSlots id => (s.releaseSlots id).2

/-! ## What leaves the keys or the requests in flight alone -/

/-- The second store has the keys of the first and its requests in flight. -/
structure SameKeys (s t : Store) : Prop where
  apiKeys : t.apiKeys = s.apiKeys
  inFlight : t.inFlight = s.inFlight

variable (s : Store)

theorem sameKeys_setPath (path : String) : SameKeys s (s.setPath path) := by
  refine ⟨?_, ?_⟩ <;> simp only [setPath, apiKeys]

theorem sameKeys_upsertUser (freshId : String) (now : Moment) (user : User) :
    SameKeys s (s.upsertUser freshId now user).2 := by
  unfold upsertUser
  dsimp only
  repeat' split
  all_goals exact ⟨rfl, rfl⟩

theorem sameKeys_updateUser (id : String) (patch : User → User) :
    SameKeys s (s.updateUser id patch).2 := by
  unfold updateUser
  dsimp only
  repeat' split
  all_goals exact ⟨rfl, rfl⟩

theorem sameKeys_deleteUser (id : String) : SameKeys s (s.deleteUser id).2 := by
  unfold deleteUser
  dsimp only
  repeat' split
  all_goals exact ⟨rfl, rfl⟩

theorem sameKeys_hashPassword (hasher : Hasher) (salt : List UInt8) (password : String) :
    SameKeys s (s.hashPassword hasher salt password).2 := by
  refine ⟨?_, ?_⟩ <;> simp only [hashPassword, apiKeys]

theorem sameKeys_authenticate (hasher : Hasher) (salt : List UInt8)
    (username password : String) : SameKeys s (s.authenticate hasher salt username password).2 := by
  unfold authenticate withDecoy
  split
  · exact ⟨rfl, rfl⟩
  · cases s.decoy <;> exact ⟨rfl, rfl⟩

theorem inFlight_load (files : FileTree) (now : Moment) :
    (s.load files now).2.inFlight = s.inFlight := by
  unfold load
  repeat' split
  all_goals rfl

theorem inFlight_upsertKey (freshId : String) (now : Moment) (key : ApiKey) :
    (s.upsertKey freshId now key).2.inFlight = s.inFlight := by
  unfold upsertKey
  repeat' split
  all_goals rfl

theorem inFlight_updateKey (id : String) (patch : ApiKey → ApiKey) :
    (s.updateKey id patch).2.inFlight = s.inFlight := by
  unfold updateKey
  dsimp only
  repeat' split
  all_goals rfl

theorem inFlight_resetUsage (id : String) : (s.resetUsage id).2.inFlight = s.inFlight := by
  unfold resetUsage
  split <;> rfl

/-! ## What changes them -/

/-- How many slots of the key are reserved. -/
def slots (k : String) : Nat := (s.inFlightOf k).toNat

/-- Why no request on the key can be admitted now, if none can. -/
def denial? (key : ApiKey) : Option StoreError :=
  if key.enabled = false then some .keyDisabled
  else if key.exhausted then some .quotaExceeded
  else if key.hasConcurrencyLimit ∧ key.concurrencyLimit ≤ s.inFlight.count key.id then
    some .concurrencyExceeded
  else none

/-- An admission on the key. A refused one leaves the store as it is. -/
def admission (key : ApiKey) : Outcome ApiKey :=
  match s.denial? key with
  | some denial => (.error denial, s)
  | none =>
    (.ok key,
      if key.hasConcurrencyLimit then { s with inFlight := s.inFlight.reserve key.id } else s)

theorem denial?_eq_none_iff {key : ApiKey} :
    s.denial? key = none ↔
      key.enabled = true ∧ key.exhausted = false ∧
        (key.hasConcurrencyLimit = true → s.inFlight.count key.id < key.concurrencyLimit) := by
  unfold denial?
  split_ifs <;> simp_all

theorem beginRequest_eq (presented : String) :
    s.beginRequest presented =
      match s.findKey? presented with
      | none => (.error .keyNotFound, s)
      | some key => s.admission key := by
  rw [beginRequest]
  cases s.findKey? presented with
  | none => rfl
  | some key =>
    simp only [admission, denial?, InFlight.count_entry, InFlight.reserve_entry]
    by_cases henabled : key.enabled = false
    · simp [henabled]
    by_cases hquota : key.exhausted = true
    · simp [henabled, hquota]
    by_cases hlimit : key.hasConcurrencyLimit = true
    · by_cases hfull : key.concurrencyLimit ≤ s.inFlight.count key.id
      · -- A limit is not zero, so the entry that was too full to pass it was there before.
        have hpos : 0 < s.inFlight.count key.id :=
          UInt32.lt_of_lt_of_le (of_decide_eq_true hlimit) hfull
        simp [henabled, hquota, hlimit, hfull, InFlight.entry_of_pos hpos]
      · simp [henabled, hquota, hlimit, hfull]
    · simp [henabled, hquota, hlimit]

/-- A request is refused, or admitted on an enabled key with quota left: without a concurrency
limit as it is, with one on a slot that was free. -/
theorem beginRequest_cases (credential : String) :
    (∃ e, s.beginRequest credential = (.error e, s)) ∨
    ∃ key, s.findKey? credential = some key ∧ key.enabled = true ∧ key.exhausted = false ∧
      ((key.hasConcurrencyLimit = false ∧ s.beginRequest credential = (.ok key, s)) ∨
        (key.hasConcurrencyLimit = true ∧ s.inFlight.count key.id < key.concurrencyLimit ∧
          s.beginRequest credential =
            (.ok key, { s with inFlight := s.inFlight.reserve key.id }))) := by
  rw [beginRequest_eq]
  cases s.findKey? credential with
  | none => exact .inl ⟨_, rfl⟩
  | some key =>
    cases hdenial : s.denial? key with
    | some e => exact .inl ⟨e, by simp only [admission, hdenial]⟩
    | none =>
      obtain ⟨henabled, hquota, hroom⟩ := s.denial?_eq_none_iff.mp hdenial
      refine .inr ⟨key, rfl, henabled, hquota, ?_⟩
      cases hlimit : key.hasConcurrencyLimit with
      | false => exact .inl ⟨rfl, by simp [admission, hdenial, hlimit]⟩
      | true => exact .inr ⟨rfl, hroom hlimit, by simp [admission, hdenial, hlimit]⟩

/-- A completion looks its key up as an admission does. -/
theorem endRequest_eq (credential : String) (counted : Bool) :
    s.endRequest credential counted =
      match s.findKey? credential with
      | none => (.error .keyNotFound, s)
      | some key =>
        s.completeOn (fun k => sameCredential k.credential (Text.trim credential)) key counted := by
  rw [findKey?_eq]
  simp only [endRequest, String.isEmpty_iff]
  split <;> rfl

/-- A completion finds no key, or takes place on the first key that passes its test. -/
theorem endRequest_cases (credential : String) (counted : Bool) :
    (∃ e, s.endRequest credential counted = (.error e, s)) ∨
    ∃ test key, s.apiKeys.find? test = some key ∧
      s.endRequest credential counted = s.completeOn test key counted := by
  rw [endRequest_eq]
  cases hfound : s.findKey? credential with
  | none => exact .inl ⟨_, rfl⟩
  | some key =>
    have hkey := (findKey?_eq_some_iff.mp hfound).2
    exact .inr ⟨fun k => sameCredential k.credential (Text.trim credential), key, hkey, rfl⟩

theorem endRequestById_cases (id : String) (counted : Bool) :
    (s.keyWithId? (Text.trim id) = none ∧
      s.endRequestById id counted = (.error .keyNotFound, s)) ∨
    ∃ key, s.keyWithId? (Text.trim id) = some key ∧
      s.endRequestById id counted = s.completeOn (·.id == Text.trim id) key counted := by
  unfold endRequestById
  dsimp only
  cases h : s.keyWithId? (Text.trim id) with
  | none => exact .inl ⟨rfl, rfl⟩
  | some key => exact .inr ⟨key, rfl, rfl⟩

theorem releaseSlots_cases (id : String) :
    (s.keyWithId? id = none ∧ s.releaseSlots id = (.error .keyNotFound, s)) ∨
    ((s.keyWithId? id).isSome ∧
      s.releaseSlots id =
        (.ok (s.inFlight.count id), { s with inFlight := s.inFlight.remove id })) := by
  unfold releaseSlots
  cases s.keyWithId? id with
  | none => exact .inl ⟨rfl, rfl⟩
  | some key => exact .inr ⟨rfl, rfl⟩

theorem apiKeys_beginRequest (credential : String) :
    (s.beginRequest credential).2.apiKeys = s.apiKeys := by
  rcases s.beginRequest_cases credential with ⟨e, he⟩ | ⟨key, -, -, -, ⟨-, he⟩ | ⟨-, -, he⟩⟩
  all_goals rw [he]
  rfl

theorem apiKeys_releaseSlots (id : String) : (s.releaseSlots id).2.apiKeys = s.apiKeys := by
  rcases s.releaseSlots_cases id with ⟨-, he⟩ | ⟨-, he⟩
  all_goals rw [he]
  rfl

end Store

/-- The operation is on users, or changes no record of a key. -/
def Operation.LeavesKeys : Operation → Prop
  | .load .. | .upsertKey .. | .updateKey .. | .deleteKey .. | .resetUsage .. | .endRequest ..
  | .endRequestById .. => False
  | _ => True

theorem Store.apiKeys_apply {s : Store} {op : Operation} (h : op.LeavesKeys) :
    (s.apply op).apiKeys = s.apiKeys := by
  cases op with
  | load | upsertKey | updateKey | deleteKey | resetUsage | endRequest | endRequestById =>
    exact h.elim
  | save => rfl
  | setPath path => exact (s.sameKeys_setPath path).apiKeys
  | upsertUser freshId now user => exact (s.sameKeys_upsertUser freshId now user).apiKeys
  | updateUser id patch => exact (s.sameKeys_updateUser id patch).apiKeys
  | deleteUser id => exact (s.sameKeys_deleteUser id).apiKeys
  | hashPassword hasher salt password =>
    exact (s.sameKeys_hashPassword hasher salt password).apiKeys
  | authenticate hasher salt username password =>
    exact (s.sameKeys_authenticate hasher salt username password).apiKeys
  | beginRequest credential => exact s.apiKeys_beginRequest credential
  | releaseSlots id => exact s.apiKeys_releaseSlots id

/-! ## Moves -/

/-- What an operation is to the requests of one key. -/
inductive Move where
  | admission
  | completion
  | release
  | other
deriving DecidableEq

namespace Move

/-- A request on the key is begun or ended if the answer is that key. -/
def ifAnswered (move : Move) (k : String) : Except StoreError ApiKey → Move
  | .ok key => if key.id = k then move else .other
  | .error _ => .other

/-- An answer makes of a move no third one. -/
theorem ifAnswered_ne {move m : Move} (h : move ≠ m) (hother : m ≠ .other) (k : String)
    (answer : Except StoreError ApiKey) : move.ifAnswered k answer ≠ m := by
  unfold ifAnswered
  split
  · split
    · exact h
    · exact hother.symm
  · exact hother.symm

/-- How a move changes the slots of a key with this limit: without a limit, none is reserved and
none given back. -/
inductive Slots (limit : UInt32) (before after : Nat) : Move → Prop
  | admission (room : 0 < limit → before < limit.toNat)
      (grown : after = before + (decide (0 < limit)).toNat) : Slots limit before after .admission
  | completion (shrunk : after = before - (decide (0 < limit)).toNat) :
      Slots limit before after .completion
  | release (emptied : after = 0) : Slots limit before after .release
  | other (same : after = before) : Slots limit before after .other

end Move

def Operation.move (k : String) (s : Store) : Operation → Move
  | .beginRequest credential => Move.admission.ifAnswered k (s.beginRequest credential).1
  | .endRequest credential counted =>
    Move.completion.ifAnswered k (s.endRequest credential counted).1
  | .endRequestById id counted => Move.completion.ifAnswered k (s.endRequestById id counted).1
  | .releaseSlots id => if id = k then .release else .other
  | _ => .other

/-- The operation is a completion that counts as a use. -/
def Operation.counted : Operation → Bool
  | .endRequest _ counted | .endRequestById _ counted => counted
  | _ => false

/-- Only a release of the key's slots is a release. -/
theorem Operation.move_eq_release_iff {k : String} {s : Store} {op : Operation} :
    op.move k s = .release ↔ op = .releaseSlots k := by
  constructor
  · intro h
    cases op <;> simp only [Operation.move] at h
    case beginRequest => exact absurd h (Move.ifAnswered_ne (by decide) (by decide) k _)
    case endRequest => exact absurd h (Move.ifAnswered_ne (by decide) (by decide) k _)
    case endRequestById => exact absurd h (Move.ifAnswered_ne (by decide) (by decide) k _)
    case releaseSlots id =>
      by_cases hid : id = k
      · rw [hid]
      · rw [if_neg hid] at h
        cases h
    all_goals cases h
  · rintro rfl
    exact if_pos rfl

theorem Operation.move_beginRequest_ne {k : String} {s : Store} (credential : String) :
    (Operation.beginRequest credential).move k s ≠ .completion := by
  rw [Operation.move]
  exact Move.ifAnswered_ne (by decide) (by decide) k _

theorem Operation.move_eq_admission {k : String} {s : Store} {op : Operation}
    (h : op.move k s = .admission) :
    ∃ credential key, op = .beginRequest credential ∧
      (s.beginRequest credential).1 = .ok key ∧ key.id = k := by
  cases op <;> simp only [Operation.move] at h
  case beginRequest credential =>
    cases hbegin : (s.beginRequest credential).1 with
    | error e =>
      rw [hbegin] at h
      cases h
    | ok key =>
      refine ⟨credential, key, rfl, hbegin, ?_⟩
      by_contra hid
      rw [hbegin, Move.ifAnswered, if_neg hid] at h
      cases h
  case endRequest => exact absurd h (Move.ifAnswered_ne (by decide) (by decide) k _)
  case endRequestById => exact absurd h (Move.ifAnswered_ne (by decide) (by decide) k _)
  case releaseSlots id => split at h <;> cases h
  all_goals cases h

/-- A completion on the key takes place on the first key that passes some test. -/
theorem Operation.move_eq_completion {k : String} {s : Store} {op : Operation}
    (h : op.move k s = .completion) :
    ∃ test found, s.apiKeys.find? test = some found ∧ found.id = k ∧
      s.apply op = (s.completeOn test found op.counted).2 := by
  have hid {test : ApiKey → Bool} {found : ApiKey} {counted : Bool}
      (hm : Move.completion.ifAnswered k (s.completeOn test found counted).1 = .completion) :
      found.id = k := by
    have hafter : (if counted then found.recordUse else found).id = found.id := by
      split <;> rfl
    by_contra hid
    rw [Store.completeOn, Move.ifAnswered, hafter, if_neg hid] at hm
    cases hm
  cases op <;> simp only [Operation.move] at h
  case beginRequest credential => exact absurd h (Move.ifAnswered_ne (by decide) (by decide) k _)
  case endRequest credential counted =>
    rcases s.endRequest_cases credential counted with ⟨e, he⟩ | ⟨test, found, hfound, he⟩
    · rw [he] at h
      cases h
    · rw [he] at h
      exact ⟨test, found, hfound, hid h, by rw [Store.apply, he, Operation.counted]⟩
  case endRequestById id counted =>
    rcases s.endRequestById_cases id counted with ⟨-, he⟩ | ⟨found, hfound, he⟩
    · rw [he] at h
      cases h
    · rw [he] at h
      exact ⟨(·.id == Text.trim id), found, hfound, hid h, by
        rw [Store.apply, he, Operation.counted]⟩
  case releaseSlots id => split at h <;> cases h
  all_goals cases h

namespace Store

variable {s : Store} {k : String} {key : ApiKey}

theorem slots_beginRequest (h : s.keysWithId k = [key]) (credential : String) :
    ((Operation.beginRequest credential).move k s).Slots key.concurrencyLimit (s.slots k)
      ((s.apply (.beginRequest credential)).slots k) := by
  simp only [Operation.move, apply]
  rcases s.beginRequest_cases credential with ⟨e, he⟩ | ⟨found, hfound, -, -, hcases⟩
  · rw [he]
    exact .other rfl
  · by_cases hid : found.id = k
    · have hkey := eq_of_keysWithId h (mem_of_findKey? hfound) hid
      subst hkey
      rcases hcases with ⟨hlimit, he⟩ | ⟨hlimit, hroom, he⟩
      · rw [he, Move.ifAnswered, if_pos hid]
        rw [ApiKey.hasConcurrencyLimit] at hlimit
        refine .admission (fun hpos => absurd hpos (of_decide_eq_false hlimit)) ?_
        rw [hlimit]
        rfl
      · rw [hid] at hroom
        rw [he, Move.ifAnswered, if_pos hid, hid]
        rw [ApiKey.hasConcurrencyLimit] at hlimit
        refine .admission (fun _ => UInt32.lt_iff_toNat_lt.mp hroom) ?_
        rw [hlimit]
        exact InFlight.toNat_count_reserve hroom
    · rcases hcases with ⟨-, he⟩ | ⟨-, -, he⟩
      · rw [he, Move.ifAnswered, if_neg hid]
        exact .other rfl
      · rw [he, Move.ifAnswered, if_neg hid]
        exact .other (congrArg UInt32.toNat (InFlight.count_reserve_of_ne (Ne.symm hid)))

theorem slots_completeOn (h : s.keysWithId k = [key]) {test : ApiKey → Bool} {found : ApiKey}
    (hfound : s.apiKeys.find? test = some found) (counted : Bool) :
    (Move.completion.ifAnswered k (s.completeOn test found counted).1).Slots
      key.concurrencyLimit (s.slots k) ((s.completeOn test found counted).2.slots k) := by
  have hafter : (if counted then found.recordUse else found).id = found.id := by
    split <;> rfl
  simp only [completeOn, Move.ifAnswered, hafter]
  by_cases hid : found.id = k
  · have hkey := eq_of_keysWithId h (List.mem_of_find?_eq_some hfound) hid
    subst hkey
    rw [if_pos hid, hid]
    refine .completion ?_
    rw [ApiKey.hasConcurrencyLimit]
    cases decide (0 < found.concurrencyLimit) with
    | false => rfl
    | true => exact InFlight.toNat_count_giveBack
  · rw [if_neg hid]
    refine .other ?_
    cases found.hasConcurrencyLimit with
    | false => rfl
    | true => exact congrArg UInt32.toNat (InFlight.count_giveBack_of_ne (Ne.symm hid))

theorem slots_releaseSlots (h : s.keysWithId k = [key]) (id : String) :
    ((Operation.releaseSlots id).move k s).Slots key.concurrencyLimit (s.slots k)
      ((s.apply (.releaseSlots id)).slots k) := by
  simp only [Operation.move, apply]
  rcases s.releaseSlots_cases id with ⟨hnone, he⟩ | ⟨-, he⟩
  · have hid : id ≠ k := by
      rintro rfl
      rw [keyWithId?_of_keysWithId h] at hnone
      cases hnone
    rw [he, if_neg hid]
    exact .other rfl
  · by_cases hid : id = k
    · rw [he, if_pos hid, hid]
      exact .release (congrArg UInt32.toNat InFlight.count_remove_self)
    · rw [he, if_neg hid]
      exact .other (congrArg UInt32.toNat (InFlight.count_remove_of_ne (Ne.symm hid)))

/-- A key that is still stored was not the one deleted, so its slots are as they were. -/
theorem slots_deleteKey {id : String} (h : ((s.deleteKey id).2).keysWithId k ≠ []) :
    (s.deleteKey id).2.slots k = s.slots k := by
  rw [deleteKey_eq] at h ⊢
  cases hfound : s.findKeyById? id with
  | none => rfl
  | some deleted =>
    rw [hfound] at h
    exact congrArg UInt32.toNat (InFlight.count_remove_of_ne (ne_of_filter_ne_nil h))

/-- What an operation does to the slots of a key that is stored before and after it. -/
theorem slots_apply {op : Operation} (h : s.keysWithId k = [key])
    (h' : (s.apply op).keysWithId k ≠ []) :
    (op.move k s).Slots (s.limitOf k) (s.slots k) ((s.apply op).slots k) := by
  rw [limitOf_of_keysWithId h]
  have frame {t : Store} (ht : t.inFlight = s.inFlight) : t.slots k = s.slots k := by
    simp only [slots, inFlightOf, ht]
  -- Only the four operations of admission and a deletion touch what is in flight.
  cases op <;> simp only [Operation.move, apply] at h' ⊢
  case load files now => exact .other (frame (s.inFlight_load files now))
  case save => exact .other rfl
  case setPath path => exact .other (frame (s.sameKeys_setPath path).inFlight)
  case upsertUser freshId now user =>
    exact .other (frame (s.sameKeys_upsertUser freshId now user).inFlight)
  case updateUser id patch => exact .other (frame (s.sameKeys_updateUser id patch).inFlight)
  case deleteUser id => exact .other (frame (s.sameKeys_deleteUser id).inFlight)
  case hashPassword hasher salt password =>
    exact .other (frame (s.sameKeys_hashPassword hasher salt password).inFlight)
  case authenticate hasher salt username password =>
    exact .other (frame (s.sameKeys_authenticate hasher salt username password).inFlight)
  case upsertKey freshId now key => exact .other (frame (s.inFlight_upsertKey freshId now key))
  case updateKey id patch => exact .other (frame (s.inFlight_updateKey id patch))
  case deleteKey id => exact .other (slots_deleteKey h')
  case resetUsage id => exact .other (frame (s.inFlight_resetUsage id))
  case beginRequest credential => exact slots_beginRequest h credential
  case endRequest credential counted =>
    rcases s.endRequest_cases credential counted with ⟨e, he⟩ | ⟨test, found, hfound, he⟩
    · rw [he]
      exact .other rfl
    · rw [he]
      exact slots_completeOn h hfound counted
  case endRequestById id counted =>
    rcases s.endRequestById_cases id counted with ⟨-, he⟩ | ⟨found, hfound, he⟩
    · rw [he]
      exact .other rfl
    · rw [he]
      exact slots_completeOn h hfound counted
  case releaseSlots id => exact slots_releaseSlots h id

/-! ## Moves leave the limits alone -/

theorem limitOf_completeOn {test : ApiKey → Bool} {found : ApiKey}
    (hfound : s.apiKeys.find? test = some found) (counted : Bool) :
    (s.completeOn test found counted).2.limitOf k = s.limitOf k := by
  refine limitOf_congr (map_replaceFirst hfound ?_) k
  cases counted <;> rfl

theorem limitOf_apply {op : Operation} (h : op.move k s ≠ .other) :
    (s.apply op).limitOf k = s.limitOf k := by
  cases op <;> simp only [Operation.move, apply] at h ⊢
  case beginRequest credential =>
    exact limitOf_congr (congrArg _ (s.apiKeys_beginRequest credential)) k
  case endRequest credential counted =>
    rcases s.endRequest_cases credential counted with ⟨e, he⟩ | ⟨test, found, hfound, he⟩
    · rw [he]
    · rw [he]
      exact limitOf_completeOn hfound counted
  case endRequestById id counted =>
    rcases s.endRequestById_cases id counted with ⟨-, he⟩ | ⟨found, hfound, he⟩
    · rw [he]
    · rw [he]
      exact limitOf_completeOn hfound counted
  case releaseSlots id => exact limitOf_congr (congrArg _ (s.apiKeys_releaseSlots id)) k
  all_goals exact absurd rfl h

end Store
end Turnstile
