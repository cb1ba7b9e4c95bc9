import Turnstile.Store.Login
import Turnstile.Proofs.Lookup

/-! Users of a store: how they are found by id and by name, who can log in, and what the store holds
once a user has been added or changed. -/

namespace Turnstile.Store

variable {s t : Store} {id username freshId : String} {now : Moment} {given u : User}

theorem findUser?_eq (s : Store) (id : String) :
    s.findUser? id =
      if Text.trim id = "" then none else s.users.find? (·.id == Text.trim id) := by
  simp only [findUser?, String.isEmpty_iff]

theorem findUserByName?_eq (s : Store) (username : String) :
    s.findUserByName? username =
      if Text.trim username = "" then none
      else s.users.find? fun v => sameUsername v.username (Text.trim username) := by
  simp only [findUserByName?, String.isEmpty_iff]

theorem findUser?_eq_some_iff :
    s.findUser? id = some u ↔
      Text.trim id ≠ "" ∧ s.users.find? (·.id == Text.trim id) = some u := by
  rw [findUser?_eq]
  split <;> simp [*]

theorem findUserByName?_eq_some_iff :
    s.findUserByName? username = some u ↔
      Text.trim username ≠ "" ∧
        s.users.find? (fun v => sameUsername v.username (Text.trim username)) = some u := by
  rw [findUserByName?_eq]
  split <;> simp [*]

theorem id_of_findUser? (h : s.findUser? id = some u) : u.id = Text.trim id ∧ u.id ≠ "" := by
  obtain ⟨hfilled, hfound⟩ := findUser?_eq_some_iff.mp h
  have hid : u.id = Text.trim id := Lookup.name_of_find? hfound
  exact ⟨hid, hid ▸ hfilled⟩

theorem mem_of_findUser? (h : s.findUser? id = some u) : u ∈ s.users :=
  List.mem_of_find?_eq_some (findUser?_eq_some_iff.mp h).2

theorem not_sameUsername_of_findUserByName? (h : s.findUserByName? username = none)
    (hfilled : Text.trim username ≠ "") :
    ∀ v ∈ s.users, sameUsername v.username (Text.trim username) = false := by
  rw [findUserByName?_eq, if_neg hfilled, List.find?_eq_none] at h
  exact fun v hv => Bool.eq_false_iff.mpr (h v hv)

/-! ## Logins -/

theorem loginCandidate?_congr {username : String}
    (h : s.findUserByName? username = t.findUserByName? username) :
    s.loginCandidate? username = t.loginCandidate? username := by
  rw [loginCandidate?, loginCandidate?, h]

theorem authenticate_fst (s : Store) (hasher : Hasher) (salt : List UInt8)
    (username password : String) :
    (s.authenticate hasher salt username password).1 =
      match s.loginCandidate? username with
      | some user =>
        if hasher.verify password user.passwordHash then .ok user else .error .invalidCredentials
      | none => .error .invalidCredentials := by
  unfold authenticate
  cases s.loginCandidate? username <;> rfl

/-! ## Changes -/

/-- A new user gets an id, is created now and stands behind all others, none of which answers to its
name. -/
theorem upsertUser_of_new (hnew : given.id = "")
    (h : s.upsertUser freshId now given = (.ok u, t)) :
    u = { given with id := freshId, username := Text.trim given.username, createdAt := now } ∧
      checkUsername u.username = .ok () ∧
      (∀ v ∈ s.users, sameUsername v.username u.username = false) ∧
      t = s.withUsers (s.users ++ [u]) := by
  have hisNew : User.isNew { given with username := Text.trim given.username } = true :=
    String.isEmpty_iff.mpr hnew
  unfold upsertUser at h
  dsimp only at h
  split at h
  · cases h
  · rename_i hcheck
    split at h
    · cases h
    · rename_i hfree
      cases h
      refine ⟨rfl, hcheck, ?_, rfl⟩
      simpa [nameTaken, hnew] using hfree

/-- A user who is changed keeps the place, and no user with another id answers to the new name. -/
theorem updateUser_of_ok {patch : User → User} (h : s.updateUser id patch = (.ok u, t)) :
    ∃ found, s.users.find? (·.id == Text.trim id) = some found ∧
      u = { patch found with username := Text.trim (patch found).username } ∧
      checkUsername u.username = .ok () ∧
      (∀ v ∈ s.users, v.id ≠ Text.trim id → sameUsername v.username u.username = false) ∧
      t = s.withUsers (replaceFirst (·.id == Text.trim id) u s.users) := by
  unfold updateUser at h
  dsimp only at h
  split at h
  · cases h
  · rename_i found hfound
    split at h
    · cases h
    · rename_i hcheck
      split at h
      · cases h
      · rename_i hfree
        cases h
        refine ⟨found, hfound, rfl, hcheck, ?_, rfl⟩
        simpa using hfree

end Turnstile.Store
