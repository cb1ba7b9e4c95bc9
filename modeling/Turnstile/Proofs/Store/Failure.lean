import Turnstile.Proofs.Store.Operation

/-! What operations answer, and what one that fails leaves behind. It has changed neither the
records nor the requests in flight nor the path, in whatever state it was asked for: every check
stands before the first change, and the entry that an admission makes too early is one that was
there. Only what a store remembers about password hashing can differ, after a login that was
refused. -/

namespace Turnstile

/-- What an operation answers when it succeeds. -/
inductive Reply where
  | done
  | user (u : User)
  | key (k : ApiKey)
  | hash (text : String)
  | slots (n : UInt32)
deriving DecidableEq

namespace Store

/-- The answer to an operation; the state after it is `apply`. A path can always be set. -/
def answer (s : Store) : Operation → Except StoreError Reply
  | .load files now => (s.load files now).1.map fun _ => .done
  | .save files now tag => (s.save files now tag).1.map fun _ => .done
  | .setPath _ => .ok .done
  | .upsertUser freshId now user => (s.upsertUser freshId now user).1.map .user
  | .updateUser id patch => (s.updateUser id patch).1.map .user
  | .deleteUser id => (s.deleteUser id).1.map fun _ => .done
  | .hashPassword hasher salt password => (s.hashPassword hasher salt password).1.map .hash
  | .authenticate hasher salt username password =>
    (s.authenticate hasher salt username password).1.map .user
  | .upsertKey freshId now key => (s.upsertKey freshId now key).1.map .key
  | .updateKey id patch => (s.updateKey id patch).1.map .key
  | .deleteKey id => (s.deleteKey id).1.map fun _ => .done
  | .resetUsage id => (s.resetUsage id).1.map .key
  | .beginRequest credential => (s.beginRequest credential).1.map .key
  | .endRequest credential counted => (s.endRequest credential counted).1.map .key
  | .endRequestById id counted => (s.endRequestById id counted).1.map .key
  | .releaseSlots id => (s.releaseSlots id).1.map .slots

/-- The second store holds what the first one holds; what they remember about hashing may differ. -/
structure SameData (s t : Store) : Prop where
  records : t.records = s.records
  inFlight : t.inFlight = s.inFlight
  path : t.path = s.path

theorem SameData.refl (s : Store) : SameData s s := ⟨rfl, rfl, rfl⟩

theorem SameData.trans {s t u : Store} (h : SameData s t) (h' : SameData t u) : SameData s u :=
  ⟨h'.records.trans h.records, h'.inFlight.trans h.inFlight, h'.path.trans h.path⟩

/-- The state that comes with an error is the one that the operation met. One that comes with an
answer has its path. -/
inductive Keeps {α : Type} (s : Store) : Outcome α → Prop
  | error (e : StoreError) : Keeps s (.error e, s)
  | ok {t : Store} (a : α) (path : t.path = s.path) : Keeps s (.ok a, t)

variable {s : Store}

/-! ## Operation by operation -/

theorem keeps_load (files : FileTree) (now : Moment) : s.Keeps (s.load files now) := by
  unfold load
  repeat' split
  all_goals first | exact .error _ | exact .ok _ rfl

theorem keeps_upsertUser (freshId : String) (now : Moment) (user : User) :
    s.Keeps (s.upsertUser freshId now user) := by
  unfold upsertUser
  dsimp only
  repeat' split
  all_goals first | exact .error _ | exact .ok _ rfl

theorem keeps_updateUser (id : String) (patch : User → User) :
    s.Keeps (s.updateUser id patch) := by
  unfold updateUser
  dsimp only
  repeat' split
  all_goals first | exact .error _ | exact .ok _ rfl

theorem keeps_deleteUser (id : String) : s.Keeps (s.deleteUser id) := by
  unfold deleteUser
  dsimp only
  repeat' split
  all_goals first | exact .error _ | exact .ok _ rfl

theorem keeps_upsertKey (freshId : String) (now : Moment) (key : ApiKey) :
    s.Keeps (s.upsertKey freshId now key) := by
  unfold upsertKey
  repeat' split
  all_goals first | exact .error _ | exact .ok _ rfl

theorem keeps_updateKey (id : String) (patch : ApiKey → ApiKey) :
    s.Keeps (s.updateKey id patch) := by
  unfold updateKey
  dsimp only
  repeat' split
  all_goals first | exact .error _ | exact .ok _ rfl

theorem keeps_deleteKey (id : String) : s.Keeps (s.deleteKey id) := by
  rw [deleteKey_eq]
  cases s.findKeyById? id with
  | none => exact .error _
  | some deleted => exact .ok _ rfl

theorem keeps_resetUsage (id : String) : s.Keeps (s.resetUsage id) := by
  unfold resetUsage
  split
  · exact .error _
  · exact .ok _ rfl

theorem keeps_beginRequest (credential : String) :
    s.Keeps (s.beginRequest credential) := by
  rcases s.beginRequest_cases credential with ⟨e, he⟩ | ⟨key, -, -, -, ⟨-, he⟩ | ⟨-, -, he⟩⟩
  all_goals rw [he]
  · exact .error e
  · exact .ok key rfl
  · exact .ok key rfl

theorem keeps_endRequest (credential : String) (counted : Bool) :
    s.Keeps (s.endRequest credential counted) := by
  rcases s.endRequest_cases credential counted with ⟨e, he⟩ | ⟨test, key, -, he⟩
  all_goals rw [he]
  · exact .error e
  · exact .ok _ rfl

theorem keeps_endRequestById (id : String) (counted : Bool) :
    s.Keeps (s.endRequestById id counted) := by
  rcases s.endRequestById_cases id counted with ⟨-, he⟩ | ⟨key, -, he⟩
  all_goals rw [he]
  · exact .error _
  · exact .ok _ rfl

theorem keeps_releaseSlots (id : String) : s.Keeps (s.releaseSlots id) := by
  rcases s.releaseSlots_cases id with ⟨-, he⟩ | ⟨-, he⟩
  all_goals rw [he]
  · exact .error _
  · exact .ok _ rfl

/-! ## What hashing and logins leave alone, also when they succeed -/

theorem sameData_hashPassword (hasher : Hasher) (salt : List UInt8) (password : String) :
    SameData s (s.hashPassword hasher salt password).2 := ⟨rfl, rfl, rfl⟩

theorem sameData_authenticate (hasher : Hasher) (salt : List UInt8) (username password : String) :
    SameData s (s.authenticate hasher salt username password).2 := by
  unfold authenticate withDecoy
  split
  · exact ⟨rfl, rfl, rfl⟩
  · cases s.decoy <;> exact ⟨rfl, rfl, rfl⟩

/-! ## Every operation -/

theorem Keeps.map {α : Type} {outcome : Outcome α} (h : s.Keeps outcome) (f : α → Reply) :
    s.Keeps (outcome.1.map f, outcome.2) := by
  cases h with
  | error e => exact .error e
  | ok a path => exact .ok (f a) path

theorem Keeps.path {α : Type} {outcome : Outcome α} (h : s.Keeps outcome) :
    outcome.2.path = s.path := by
  cases h with
  | error => rfl
  | ok _ path => exact path

theorem keeps_apply {op : Operation} (h : ∀ path, op ≠ .setPath path) :
    SameData s (s.apply op) ∨ s.Keeps (s.answer op, s.apply op) := by
  cases op <;> simp only [answer, apply]
  case load files now => exact .inr ((keeps_load files now).map _)
  case save => exact .inl (.refl s)
  case setPath path => exact absurd rfl (h path)
  case upsertUser freshId now user => exact .inr ((keeps_upsertUser freshId now user).map _)
  case updateUser id patch => exact .inr ((keeps_updateUser id patch).map _)
  case deleteUser id => exact .inr ((keeps_deleteUser id).map _)
  case hashPassword hasher salt password => exact .inl (sameData_hashPassword hasher salt password)
  case authenticate hasher salt username password =>
    exact .inl (sameData_authenticate hasher salt username password)
  case upsertKey freshId now key => exact .inr ((keeps_upsertKey freshId now key).map _)
  case updateKey id patch => exact .inr ((keeps_updateKey id patch).map _)
  case deleteKey id => exact .inr ((keeps_deleteKey id).map _)
  case resetUsage id => exact .inr ((keeps_resetUsage id).map _)
  case beginRequest credential => exact .inr ((keeps_beginRequest credential).map _)
  case endRequest credential counted => exact .inr ((keeps_endRequest credential counted).map _)
  case endRequestById id counted => exact .inr ((keeps_endRequestById id counted).map _)
  case releaseSlots id => exact .inr ((keeps_releaseSlots id).map _)

/-- Only a change of the path changes the path. -/
theorem path_apply {op : Operation} (h : ∀ path, op ≠ .setPath path) :
    (s.apply op).path = s.path := by
  rcases keeps_apply h with hsame | hkeeps
  · exact hsame.path
  · exact hkeeps.path

/-- An operation changes nothing, or it succeeds. -/
theorem same_or_answered (s : Store) (op : Operation) :
    SameData s (s.apply op) ∨ ∃ reply, s.answer op = .ok reply := by
  by_cases hset : ∃ path, op = .setPath path
  · obtain ⟨path, rfl⟩ := hset
    exact .inr ⟨.done, rfl⟩
  · rcases keeps_apply fun path hpath => hset ⟨path, hpath⟩ with hsame | hkeeps
    · exact .inl hsame
    · generalize s.answer op = answer, s.apply op = t at hkeeps ⊢
      cases hkeeps with
      | error => exact .inl (.refl s)
      | ok reply => exact .inr ⟨reply, rfl⟩

/-- An operation that fails leaves the records, the requests in flight and the path as they were. -/
theorem unchanged_of_error (s : Store) (op : Operation) (e : StoreError)
    (h : s.answer op = .error e) : SameData s (s.apply op) := by
  rcases s.same_or_answered op with hsame | ⟨reply, hreply⟩
  · exact hsame
  · rw [h] at hreply
    cases hreply

/-- Two keys under one id, and as many requests in flight as the first of them allows. -/
def fullStore : Store :=
  { stocked [{ ApiKey.fresh "tk_door" "" .epoch with id := "key_1", concurrencyLimit := 1 },
      { ApiKey.fresh "tk_gate" "" .epoch with id := "key_1" }] with inFlight := [("key_1", 1)] }

theorem unchanged_of_error_full :
    fullStore.answer (.beginRequest "tk_door") = .error .concurrencyExceeded ∧
      SameData fullStore (fullStore.apply (.beginRequest "tk_door")) := by
  have hfull : fullStore.answer (.beginRequest "tk_door") = .error .concurrencyExceeded := by
    decide +kernel
  exact ⟨hfull, unchanged_of_error fullStore _ _ hfull⟩

end Store
end Turnstile
