import Turnstile.Proofs.Files.Outline
import Turnstile.Store.Admission
import Turnstile.Store.File
import Turnstile.Store.Login

/-! Stores that differ in password hashes. No check of an operation reads a hash, save for that of a
login, so operations answer alike in such stores and leave such stores. A login does the same as
long as the two hashes of the user are both there or both missing, and both accept the password or
both refuse it. -/

namespace Turnstile

/-- The user without the password hash. -/
def User.veiled (u : User) : User := { u with passwordHash := "" }

/-! ## Lists of users -/

namespace User

variable {us us' : List User} {u u' : User} {p : User → Bool}

theorem any_congr (h : us.map veiled = us'.map veiled) (hp : ∀ u, p u.veiled = p u) :
    us.any p = us'.any p := by
  have hveiled (l : List User) : l.any p = (l.map veiled).any p := by
    rw [List.any_map]
    exact congrArg l.any (funext fun u => (hp u).symm)
  rw [hveiled us, hveiled us', h]

theorem find?_congr (h : us.map veiled = us'.map veiled) (hp : ∀ u, p u.veiled = p u) :
    (us.find? p).map veiled = (us'.find? p).map veiled := by
  have hveiled (l : List User) : (l.find? p).map veiled = (l.map veiled).find? p := by
    rw [List.find?_map]
    exact congrArg (fun q => (l.find? q).map veiled) (funext fun u => (hp u).symm)
  rw [hveiled, hveiled, h]

theorem filter_congr (h : us.map veiled = us'.map veiled) (hp : ∀ u, p u.veiled = p u) :
    (us.filter p).map veiled = (us'.filter p).map veiled := by
  have hveiled (l : List User) : (l.filter p).map veiled = (l.map veiled).filter p := by
    rw [List.filter_map]
    exact congrArg (fun q => (l.filter q).map veiled) (funext fun u => (hp u).symm)
  rw [hveiled, hveiled, h]

theorem replaceFirst_congr (h : us.map veiled = us'.map veiled) (hp : ∀ u, p u.veiled = p u)
    (hu : u.veiled = u'.veiled) :
    (Store.replaceFirst p u us).map veiled = (Store.replaceFirst p u' us').map veiled := by
  have hveiled (l : List User) (u : User) :
      (Store.replaceFirst p u l).map veiled = Store.replaceFirst p u.veiled (l.map veiled) := by
    induction l with
    | nil => rfl
    | cons first rest ih =>
      rw [Store.replaceFirst, List.map_cons, Store.replaceFirst, hp]
      split
      · rfl
      · rw [List.map_cons, ih]
  rw [hveiled, hveiled, h, hu]

theorem append_congr (h : us.map veiled = us'.map veiled) (hu : u.veiled = u'.veiled) :
    (us ++ [u]).map veiled = (us' ++ [u']).map veiled := by
  rw [List.map_append, List.map_append, h, List.map_singleton, List.map_singleton, hu]

end User

namespace Store

variable {s t : Store} {α : Type}

/-- The second store is the first one with other password hashes. -/
def SameButHashes (s t : Store) : Prop :=
  ∃ users : List User, s.users.map User.veiled = users.map User.veiled ∧ t = s.withUsers users

/-- The same error, or two answers that are related; the stores differ in hashes alone. -/
inductive Alike (R : α → α → Prop) : Outcome α → Outcome α → Prop
  | ok {a b : α} {s t : Store} (hanswer : R a b) (hstores : s.SameButHashes t) :
      Alike R (.ok a, s) (.ok b, t)
  | error (e : StoreError) {s t : Store} (hstores : s.SameButHashes t) :
      Alike R (.error e, s) (.error e, t)

/-! ## What users have no part in -/

section WithUsers

variable (s : Store) (us : List User)

@[simp] theorem records_withUsers : (s.withUsers us).records = { s.records with users := us } := rfl

@[simp] theorem apiKeys_withUsers : (s.withUsers us).apiKeys = s.apiKeys := rfl

@[simp] theorem inFlight_withUsers : (s.withUsers us).inFlight = s.inFlight := rfl

@[simp] theorem path_withUsers : (s.withUsers us).path = s.path := rfl

@[simp] theorem decoy_withUsers : (s.withUsers us).decoy = s.decoy := rfl

@[simp] theorem keyWithId?_withUsers (id : String) :
    (s.withUsers us).keyWithId? id = s.keyWithId? id := rfl

@[simp] theorem findKey?_withUsers (presented : String) :
    (s.withUsers us).findKey? presented = s.findKey? presented := rfl

@[simp] theorem credentialTaken_withUsers (credential id : String) :
    (s.withUsers us).credentialTaken credential id = s.credentialTaken credential id := rfl

end WithUsers

/-! ## Operations that look at no users -/

/-- The operation neither reads nor changes users. -/
def Blind (op : Store → Outcome α) : Prop :=
  ∀ s users, op (s.withUsers users) = ((op s).1, (op s).2.withUsers users)

theorem alike_of_blind {op : Store → Outcome α} (hop : Blind op) (h : s.SameButHashes t) :
    Alike Eq (op s) (op t) := by
  obtain ⟨users, husers, rfl⟩ := h
  -- the operation leaves the users that the store has
  have hkeeps : (op s).2 = (op s).2.withUsers s.users := congrArg Prod.snd (hop s s.users)
  have hstores : (op s).2.SameButHashes ((op s).2.withUsers users) := by
    refine ⟨users, ?_, rfl⟩
    rw [hkeeps]
    exact husers
  rw [hop]
  generalize op s = outcome at hstores ⊢
  rcases outcome with ⟨e | a, after⟩
  · exact .error e hstores
  · exact .ok rfl hstores

theorem blind_upsertKey (freshId : String) (now : Moment) (key : ApiKey) :
    Blind (·.upsertKey freshId now key) := by
  intro s users
  simp only [upsertKey]
  rw [credentialTaken_withUsers, apiKeys_withUsers]
  repeat' split
  all_goals rfl

theorem blind_updateKey (id : String) (patch : ApiKey → ApiKey) :
    Blind (·.updateKey id patch) := by
  intro s users
  simp only [updateKey]
  rw [keyWithId?_withUsers, apiKeys_withUsers]
  repeat' split
  all_goals rfl

theorem blind_deleteKey (id : String) : Blind (·.deleteKey id) := by
  intro s users
  simp only [deleteKey]
  rw [apiKeys_withUsers]
  repeat' split
  all_goals rfl

theorem blind_resetUsage (id : String) : Blind (·.resetUsage id) := by
  intro s users
  simp only [resetUsage, keyWithId?_withUsers]
  split <;> rfl

theorem blind_releaseSlots (id : String) : Blind (·.releaseSlots id) := by
  intro s users
  simp only [releaseSlots, keyWithId?_withUsers]
  split <;> rfl

theorem blind_beginRequest (credential : String) : Blind (·.beginRequest credential) := by
  intro s users
  simp only [beginRequest]
  rw [findKey?_withUsers, inFlight_withUsers]
  repeat' split
  all_goals rfl

theorem blind_endRequestById (id : String) (counted : Bool) :
    Blind (·.endRequestById id counted) := by
  intro s users
  simp only [endRequestById, keyWithId?_withUsers]
  split <;> rfl

theorem blind_hashPassword (hasher : Hasher) (salt : List UInt8) (password : String) :
    Blind (·.hashPassword hasher salt password) :=
  fun _ _ => rfl

/-! ## Users -/

/-- The users are the same but for their hashes. -/
def LikeUser (u u' : User) : Prop := u.veiled = u'.veiled

/-- No user both, or two that are the same but for their hashes. -/
def LikeFound (found found' : Option User) : Prop := found.map User.veiled = found'.map User.veiled

theorem LikeUser.rename {u u' : User} (h : LikeUser u u') (username : String) :
    LikeUser { u with username } { u' with username } := by
  simp only [LikeUser, User.veiled, User.mk.injEq, true_and] at h ⊢
  obtain ⟨hid, -, hrest⟩ := h
  exact ⟨hid, hrest⟩

theorem LikeFound.cases {found found' : Option User} (h : LikeFound found found') :
    found = none ∧ found' = none ∨
      ∃ u u', found = some u ∧ found' = some u' ∧ LikeUser u u' := by
  cases found with
  | none =>
    cases found' with
    | none => exact .inl ⟨rfl, rfl⟩
    | some u' => cases h
  | some u =>
    cases found' with
    | none => cases h
    | some u' => exact .inr ⟨u, u', rfl, rfl, Option.some.inj h⟩

namespace SameButHashes

theorem users (h : s.SameButHashes t) : s.users.map User.veiled = t.users.map User.veiled := by
  obtain ⟨users, husers, rfl⟩ := h
  exact husers

theorem findUser? (h : s.SameButHashes t) (id : String) :
    LikeFound (s.findUser? id) (t.findUser? id) := by
  unfold Store.findUser?
  dsimp only
  split
  · rfl
  · exact User.find?_congr h.users fun _ => rfl

theorem findUserByName? (h : s.SameButHashes t) (username : String) :
    LikeFound (s.findUserByName? username) (t.findUserByName? username) := by
  unfold Store.findUserByName?
  dsimp only
  split
  · rfl
  · exact User.find?_congr h.users fun _ => rfl

theorem withUsers (h : s.SameButHashes t) {us us' : List User}
    (husers : us.map User.veiled = us'.map User.veiled) :
    (s.withUsers us).SameButHashes (t.withUsers us') := by
  obtain ⟨users, -, rfl⟩ := h
  exact ⟨us', husers, rfl⟩

end SameButHashes

theorem alike_upsertUser (h : s.SameButHashes t) (freshId : String) (now : Moment)
    (given : User) :
    Alike LikeUser (s.upsertUser freshId now given) (t.upsertUser freshId now given) := by
  have htaken (id name : String) : t.nameTaken id name = s.nameTaken id name := by
    rw [nameTaken, nameTaken, User.any_congr h.users fun _ => rfl]
  have hstored (id : String) : t.users.any (·.id == id) = s.users.any (·.id == id) :=
    (User.any_congr h.users fun _ => rfl).symm
  unfold upsertUser
  dsimp only
  rw [htaken, hstored]
  split
  · exact .error _ h
  · split
    · exact .error _ h
    · split
      · exact .ok rfl (h.withUsers (User.append_congr h.users rfl))
      · split
        · exact .ok rfl (h.withUsers (User.replaceFirst_congr h.users (fun _ => rfl) rfl))
        · exact .ok rfl (h.withUsers (User.append_congr h.users rfl))

theorem alike_deleteUser (h : s.SameButHashes t) (id : String) :
    Alike Eq (s.deleteUser id) (t.deleteUser id) := by
  have hstored (id : String) : t.users.any (·.id == id) = s.users.any (·.id == id) :=
    (User.any_congr h.users fun _ => rfl).symm
  unfold deleteUser
  dsimp only
  rw [hstored]
  split
  · exact .error _ h
  · split
    · exact .ok rfl (h.withUsers (User.filter_congr h.users fun _ => rfl))
    · exact .error _ h

theorem alike_updateUser (h : s.SameButHashes t) (id : String) {patch : User → User}
    (hpatch : ∀ u u', LikeUser u u' → LikeUser (patch u) (patch u')) :
    Alike LikeUser (s.updateUser id patch) (t.updateUser id patch) := by
  have hfound : LikeFound (s.users.find? (·.id == Text.trim id))
      (t.users.find? (·.id == Text.trim id)) :=
    User.find?_congr h.users fun _ => rfl
  unfold updateUser
  dsimp only
  rcases hfound.cases with ⟨hs, ht⟩ | ⟨found, found', hs, ht, hlike⟩
  · rw [hs, ht]
    exact .error _ h
  · rw [hs, ht]
    dsimp only
    have hpatched : LikeUser (patch found) (patch found') := hpatch found found' hlike
    have hname : (patch found').username = (patch found).username :=
      (congrArg User.username hpatched).symm
    have htaken (name : String) : (t.users.any fun u => u.id != Text.trim id &&
        sameUsername u.username name) = s.users.any fun u => u.id != Text.trim id &&
          sameUsername u.username name :=
      (User.any_congr h.users fun _ => rfl).symm
    have hstored : LikeUser { patch found with username := Text.trim (patch found).username }
        { patch found' with username := Text.trim (patch found).username } :=
      hpatched.rename _
    rw [hname, htaken]
    split
    · exact .error _ h
    · split
      · exact .error _ h
      · exact .ok hstored
          (h.withUsers (User.replaceFirst_congr h.users (fun _ => rfl) hstored))

/-! ## Logins -/

/-- The two users of that name have no hashes both, or hashes that both accept the password or both
refuse it. -/
def SameVerdict (hasher : Hasher) (username password : String) (s t : Store) : Prop :=
  ∀ u u', s.findUserByName? username = some u → t.findUserByName? username = some u' →
    u.passwordHash = "" ∧ u'.passwordHash = "" ∨
      u.passwordHash ≠ "" ∧ u'.passwordHash ≠ "" ∧
        hasher.verify password u.passwordHash = hasher.verify password u'.passwordHash

/-- What a login does for which there is no user with a hash. -/
def refuseLogin (s : Store) (hasher : Hasher) (salt : List UInt8) (password : String) :
    Outcome User :=
  (.error .invalidCredentials,
    ((s.withDecoy hasher salt).2.verifyPassword hasher password (s.withDecoy hasher salt).1).2)

theorem blind_refuseLogin (hasher : Hasher) (salt : List UInt8) (password : String) :
    Blind (·.refuseLogin hasher salt password) := by
  intro s users
  simp only [refuseLogin, withDecoy, decoy_withUsers]
  cases s.decoy <;> rfl

theorem authenticate_of_none {username : String} (hnone : s.loginCandidate? username = none)
    (hasher : Hasher) (salt : List UInt8) (password : String) :
    s.authenticate hasher salt username password = s.refuseLogin hasher salt password := by
  rw [authenticate, hnone]
  rfl

theorem authenticate_of_some {username : String} {u : User}
    (hsome : s.loginCandidate? username = some u) (hasher : Hasher) (salt : List UInt8)
    (password : String) :
    s.authenticate hasher salt username password =
      (if hasher.verify password u.passwordHash then .ok u else .error .invalidCredentials,
        { s with tally.verified := s.tally.verified + 1 }) := by
  rw [authenticate, hsome]
  rfl

theorem alike_refuseLogin (h : s.SameButHashes t) (hasher : Hasher) (salt : List UInt8)
    (password : String) :
    Alike LikeUser (s.refuseLogin hasher salt password) (t.refuseLogin hasher salt password) := by
  have halike := alike_of_blind (blind_refuseLogin hasher salt password) h
  rw [refuseLogin, refuseLogin] at halike ⊢
  cases halike with
  | error _ hstores => exact .error _ hstores

theorem alike_authenticate (h : s.SameButHashes t) {hasher : Hasher} (salt : List UInt8)
    {username password : String} (hverdict : SameVerdict hasher username password s t) :
    Alike LikeUser (s.authenticate hasher salt username password)
      (t.authenticate hasher salt username password) := by
  rcases (h.findUserByName? username).cases with ⟨hs, ht⟩ | ⟨u, u', hs, ht, hlike⟩
  · have hnone : s.loginCandidate? username = none := by rw [loginCandidate?, hs]; rfl
    have hnone' : t.loginCandidate? username = none := by rw [loginCandidate?, ht]; rfl
    rw [authenticate_of_none hnone, authenticate_of_none hnone']
    exact alike_refuseLogin h hasher salt password
  · have hdisabled : u'.disabled = u.disabled := (congrArg User.disabled hlike).symm
    have hcandidate : s.loginCandidate? username =
        if !u.disabled && !u.passwordHash.isEmpty then some u else none := by
      rw [loginCandidate?, hs, Option.filter_some]
    have hcandidate' : t.loginCandidate? username =
        if !u.disabled && !u'.passwordHash.isEmpty then some u' else none := by
      rw [loginCandidate?, ht, Option.filter_some, hdisabled]
    rcases hverdict u u' hs ht with ⟨hempty, hempty'⟩ | ⟨hhash, hhash', hverify⟩
    · have hblank : "".isEmpty = true := rfl
      rw [hempty, hblank, Bool.not_true, Bool.and_false] at hcandidate
      rw [hempty', hblank, Bool.not_true, Bool.and_false] at hcandidate'
      rw [authenticate_of_none hcandidate, authenticate_of_none hcandidate']
      exact alike_refuseLogin h hasher salt password
    · have hsome : u.passwordHash.isEmpty = false := by simpa using hhash
      have hsome' : u'.passwordHash.isEmpty = false := by simpa using hhash'
      rw [hsome, Bool.not_false, Bool.and_true] at hcandidate
      rw [hsome', Bool.not_false, Bool.and_true] at hcandidate'
      cases hon : u.disabled with
      | true =>
        rw [hon] at hcandidate hcandidate'
        rw [authenticate_of_none hcandidate, authenticate_of_none hcandidate']
        exact alike_refuseLogin h hasher salt password
      | false =>
        rw [hon] at hcandidate hcandidate'
        rw [authenticate_of_some hcandidate, authenticate_of_some hcandidate', ← hverify]
        obtain ⟨users, husers, rfl⟩ := h
        have hstores : SameButHashes { s with tally.verified := s.tally.verified + 1 }
            { s.withUsers users with tally.verified := s.tally.verified + 1 } :=
          ⟨users, husers, rfl⟩
        split
        · exact .ok hlike hstores
        · exact .error _ hstores

/-! ## Saves -/

/-- A save writes other bytes, and is answered alike where the files have one outline. -/
theorem alike_save (h : s.SameButHashes t) {files files' : FileTree}
    (hfiles : files.outline = files'.outline) (now : Moment) (tag : String) :
    (s.save files now tag).1 = (t.save files' now tag).1 ∧
      (s.save files now tag).2.outline = (t.save files' now tag).2.outline := by
  obtain ⟨users, -, rfl⟩ := h
  unfold save
  rw [path_withUsers]
  cases s.path with
  | none => exact ⟨rfl, hfiles⟩
  | some path =>
    obtain ⟨hanswer, houtline⟩ := Replacement.run_congr hfiles path tag (s.payload now)
      ((s.withUsers users).payload now)
    dsimp only
    generalize s.payload now = bytes at hanswer houtline ⊢
    generalize (s.withUsers users).payload now = bytes' at hanswer houtline ⊢
    have hdirectory : Replacement.directory ⟨path, bytes, tag⟩ =
        Replacement.directory ⟨path, bytes', tag⟩ := by
      simp only [Replacement.directory]
    rw [hdirectory]
    generalize Replacement.run ⟨path, bytes, tag⟩ files = done at hanswer houtline ⊢
    generalize Replacement.run ⟨path, bytes', tag⟩ files' = done' at hanswer houtline ⊢
    obtain ⟨answer, after⟩ := done
    obtain ⟨answer', after'⟩ := done'
    dsimp only at hanswer houtline
    subst hanswer
    rcases answer with (e | e) | ⟨⟩
    · exact ⟨rfl, houtline⟩
    · exact ⟨rfl, houtline⟩
    · exact ⟨rfl, houtline⟩

end Store
end Turnstile
