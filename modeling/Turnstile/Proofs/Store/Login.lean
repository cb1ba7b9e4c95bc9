import Turnstile.Proofs.Run
import Turnstile.Proofs.Store.Failure
import Turnstile.Proofs.Store.Hashes
import Turnstile.Proofs.Store.Users

/-! What a login decides and what it costs. Whoever knocks, one password is verified: against the
hash of the user or against the decoy. The hash function is called for no login but the first that
needs the decoy, however logins and other operations follow each other. -/

namespace Turnstile

namespace Operation

def isLogin : Operation → Bool
  | authenticate .. => true
  | _ => false

/-- The operation is asked for the hash of a password. -/
def isHashing : Operation → Bool
  | hashPassword .. => true
  | _ => false

end Operation

namespace Store

variable {s t : Store} {hasher : Hasher} {salt : List UInt8} {username password : String} {u : User}
  {op : Operation}

/-- The user is the first who answers to the name, is not disabled, and has a hash that the password
passes for. -/
structure Admits (s : Store) (hasher : Hasher) (username password : String) (u : User) : Prop where
  named : Text.trim username ≠ ""
  first : s.users.find? (fun v => sameUsername v.username (Text.trim username)) = some u
  active : u.disabled = false
  hashed : u.passwordHash ≠ ""
  verified : hasher.verify password u.passwordHash = true

/-- The hash of the decoy password; empty if the hasher fails. -/
def decoyHash (hasher : Hasher) (salt : List UInt8) : String :=
  (hasher.hash salt decoyPassword).toOption.getD ""

/-- What a login leaves: the data are as they were, one password was verified, and the decoy is
there where no hash of a user applied. The hash function was called just for a decoy that is new. -/
structure Charged (s t : Store) (hasher : Hasher) (salt : List UInt8) (username : String) :
    Prop where
  data : SameData s t
  verified : t.tally.verified = s.tally.verified + 1
  decoy : t.decoy = s.decoy.or
    (if s.loginCandidate? username = none then some (decoyHash hasher salt) else none)
  hashed : t.tally.hashed + s.decoy.isSome.toNat = s.tally.hashed + t.decoy.isSome.toNat

/-! ## The verdict -/

theorem loginCandidate?_eq_some_iff :
    s.loginCandidate? username = some u ↔
      s.findUserByName? username = some u ∧ u.disabled = false ∧ u.passwordHash ≠ "" := by
  simp [loginCandidate?, Option.filter_eq_some_iff]

theorem authenticate_ok_iff :
    (s.authenticate hasher salt username password).1 = .ok u ↔
      s.Admits hasher username password u := by
  have hcandidate : s.Admits hasher username password u ↔
      s.loginCandidate? username = some u ∧ hasher.verify password u.passwordHash = true := by
    rw [loginCandidate?_eq_some_iff, findUserByName?_eq_some_iff]
    exact ⟨fun h => ⟨⟨⟨h.named, h.first⟩, h.active, h.hashed⟩, h.verified⟩,
      fun ⟨⟨⟨hnamed, hfirst⟩, hactive, hhashed⟩, hverified⟩ =>
        ⟨hnamed, hfirst, hactive, hhashed, hverified⟩⟩
  rw [hcandidate, authenticate_fst]
  cases s.loginCandidate? username with
  | none => simp
  | some v =>
    dsimp only
    split
    · rename_i hverify
      simp only [Except.ok.injEq, Option.some.injEq]
      constructor
      · rintro rfl
        exact ⟨rfl, hverify⟩
      · exact fun h => h.1
    · rename_i hverify
      simp only [reduceCtorEq, Option.some.injEq, false_iff, not_and]
      rintro rfl
      exact hverify

theorem authenticate_cases (s : Store) (hasher : Hasher) (salt : List UInt8)
    (username password : String) :
    (∃ u, (s.authenticate hasher salt username password).1 = .ok u) ∨
      (s.authenticate hasher salt username password).1 = .error .invalidCredentials := by
  rw [authenticate_fst]
  cases s.loginCandidate? username with
  | none => exact .inr rfl
  | some u =>
    dsimp only
    split
    · exact .inl ⟨u, rfl⟩
    · exact .inr rfl

/-! ## The cost -/

theorem withDecoy_of_some {hash : String} (h : s.decoy = some hash) (hasher : Hasher)
    (salt : List UInt8) : s.withDecoy hasher salt = (hash, s) := by
  rw [withDecoy, h]

theorem withDecoy_of_none (h : s.decoy = none) (hasher : Hasher) (salt : List UInt8) :
    s.withDecoy hasher salt = (decoyHash hasher salt,
      { s with decoy := some (decoyHash hasher salt), tally.hashed := s.tally.hashed + 1 }) := by
  rw [withDecoy, h, decoyHash]
  simp only [hashPassword]
  cases hasher.hash salt decoyPassword <;> rfl

theorem charged_refuseLogin (hnone : s.loginCandidate? username = none) (hasher : Hasher)
    (salt : List UInt8) (password : String) :
    s.Charged (s.refuseLogin hasher salt password).2 hasher salt username := by
  cases hdecoy : s.decoy with
  | some hash =>
    rw [refuseLogin, withDecoy_of_some hdecoy]
    exact ⟨⟨rfl, rfl, rfl⟩, rfl, by simp [verifyPassword, hdecoy], rfl⟩
  | none =>
    rw [refuseLogin, withDecoy_of_none hdecoy]
    exact ⟨⟨rfl, rfl, rfl⟩, rfl, by simp [verifyPassword, hdecoy, hnone],
      by simp [verifyPassword, hdecoy]⟩

theorem charged_authenticate (s : Store) (hasher : Hasher) (salt : List UInt8)
    (username password : String) :
    s.Charged (s.authenticate hasher salt username password).2 hasher salt username := by
  cases hcandidate : s.loginCandidate? username with
  | none =>
    rw [authenticate_of_none hcandidate]
    exact charged_refuseLogin hcandidate hasher salt password
  | some u =>
    rw [authenticate_of_some hcandidate]
    exact ⟨⟨rfl, rfl, rfl⟩, rfl, by simp [hcandidate], rfl⟩

/-! ## Other operations -/

/-- The two stores remember the same about hashing. -/
structure SameHashing (s t : Store) : Prop where
  decoy : t.decoy = s.decoy
  tally : t.tally = s.tally

theorem sameHashing_load (files : FileTree) (now : Moment) :
    SameHashing s (s.load files now).2 := by
  unfold load
  repeat' split
  all_goals exact ⟨rfl, rfl⟩

theorem sameHashing_setPath (path : String) : SameHashing s (s.setPath path) := by
  refine ⟨?_, ?_⟩ <;> simp only [setPath]

theorem sameHashing_upsertUser (freshId : String) (now : Moment) (user : User) :
    SameHashing s (s.upsertUser freshId now user).2 := by
  unfold upsertUser
  dsimp only
  repeat' split
  all_goals exact ⟨rfl, rfl⟩

theorem sameHashing_updateUser (id : String) (patch : User → User) :
    SameHashing s (s.updateUser id patch).2 := by
  unfold updateUser
  dsimp only
  repeat' split
  all_goals exact ⟨rfl, rfl⟩

theorem sameHashing_deleteUser (id : String) :
    SameHashing s (s.deleteUser id).2 := by
  unfold deleteUser
  dsimp only
  repeat' split
  all_goals exact ⟨rfl, rfl⟩

theorem sameHashing_upsertKey (freshId : String) (now : Moment) (key : ApiKey) :
    SameHashing s (s.upsertKey freshId now key).2 := by
  unfold upsertKey
  repeat' split
  all_goals exact ⟨rfl, rfl⟩

theorem sameHashing_updateKey (id : String) (patch : ApiKey → ApiKey) :
    SameHashing s (s.updateKey id patch).2 := by
  unfold updateKey
  dsimp only
  repeat' split
  all_goals exact ⟨rfl, rfl⟩

theorem sameHashing_deleteKey (id : String) :
    SameHashing s (s.deleteKey id).2 := by
  unfold deleteKey
  dsimp only
  repeat' split
  all_goals exact ⟨rfl, rfl⟩

theorem sameHashing_resetUsage (id : String) :
    SameHashing s (s.resetUsage id).2 := by
  unfold resetUsage
  repeat' split
  all_goals exact ⟨rfl, rfl⟩

theorem sameHashing_beginRequest (credential : String) :
    SameHashing s (s.beginRequest credential).2 := by
  unfold beginRequest
  dsimp only
  repeat' split
  all_goals exact ⟨rfl, rfl⟩

theorem sameHashing_endRequest (credential : String) (counted : Bool) :
    SameHashing s (s.endRequest credential counted).2 := by
  unfold endRequest
  dsimp only
  repeat' split
  all_goals exact ⟨rfl, rfl⟩

theorem sameHashing_endRequestById (id : String) (counted : Bool) :
    SameHashing s (s.endRequestById id counted).2 := by
  unfold endRequestById
  dsimp only
  repeat' split
  all_goals exact ⟨rfl, rfl⟩

theorem sameHashing_releaseSlots (id : String) :
    SameHashing s (s.releaseSlots id).2 := by
  unfold releaseSlots
  repeat' split
  all_goals exact ⟨rfl, rfl⟩

/-- Nothing but logins and hashing asks the hasher. -/
theorem sameHashing_apply (hlogin : op.isLogin = false) (hhashing : op.isHashing = false) :
    SameHashing s (s.apply op) := by
  cases op with
  | load files now => exact sameHashing_load files now
  | save => exact ⟨rfl, rfl⟩
  | setPath path => exact sameHashing_setPath path
  | hashPassword => cases hhashing
  | authenticate => cases hlogin
  | upsertUser freshId now user => exact sameHashing_upsertUser freshId now user
  | updateUser id patch => exact sameHashing_updateUser id patch
  | deleteUser id => exact sameHashing_deleteUser id
  | upsertKey freshId now key => exact sameHashing_upsertKey freshId now key
  | updateKey id patch => exact sameHashing_updateKey id patch
  | deleteKey id => exact sameHashing_deleteKey id
  | resetUsage id => exact sameHashing_resetUsage id
  | beginRequest credential => exact sameHashing_beginRequest credential
  | endRequest credential counted => exact sameHashing_endRequest credential counted
  | endRequestById id counted => exact sameHashing_endRequestById id counted
  | releaseSlots id => exact sameHashing_releaseSlots id

/-! ## Runs -/

/-- How often the hasher is asked by one operation. A decoy that has been made stays. -/
theorem tally_apply (s : Store) (op : Operation) :
    (s.apply op).tally.verified = s.tally.verified + op.isLogin.toNat ∧
      (s.apply op).tally.hashed + s.decoy.isSome.toNat =
        s.tally.hashed + op.isHashing.toNat + (s.apply op).decoy.isSome.toNat ∧
      s.decoy.isSome.toNat ≤ (s.apply op).decoy.isSome.toNat := by
  by_cases hother : op.isLogin = false ∧ op.isHashing = false
  · obtain ⟨hlogin, hhashing⟩ := hother
    have hsame := sameHashing_apply (s := s) hlogin hhashing
    rw [hsame.tally, hsame.decoy, hlogin, hhashing]
    exact ⟨rfl, rfl, Nat.le_refl _⟩
  · cases op with
    | authenticate hasher salt username password =>
      have hcharged := s.charged_authenticate hasher salt username password
      have hstays : s.decoy.isSome.toNat ≤
          (s.authenticate hasher salt username password).2.decoy.isSome.toNat := by
        rw [hcharged.decoy]
        cases s.decoy <;> simp
      simpa [apply, Operation.isLogin, Operation.isHashing] using
        And.intro hcharged.verified (And.intro hcharged.hashed hstays)
    | hashPassword hasher salt password =>
      simp [apply, hashPassword, Operation.isLogin, Operation.isHashing]
    | _ => exact absurd ⟨rfl, rfl⟩ hother

/-- A run of operations verifies a password for each login. It hashes one for each operation that
asks for a hash, and one for a decoy that is new. -/
theorem tally_after (s : Store) (run : List Operation) :
    (Run.after apply s run).tally.verified = s.tally.verified + run.countP Operation.isLogin ∧
      (Run.after apply s run).tally.hashed + s.decoy.isSome.toNat =
        s.tally.hashed + run.countP Operation.isHashing +
          (Run.after apply s run).decoy.isSome.toNat ∧
      s.decoy.isSome.toNat ≤ (Run.after apply s run).decoy.isSome.toNat := by
  induction run using List.reverseRecOn with
  | nil => exact ⟨rfl, rfl, Nat.le_refl _⟩
  | append_singleton past op ih =>
    obtain ⟨hverified, hhashed, hstays⟩ := ih
    obtain ⟨hverified', hhashed', hstays'⟩ := tally_apply (Run.after apply s past) op
    have hcount (test : Operation → Bool) : [op].countP test = (test op).toNat := by
      cases htest : test op <;> simp [htest]
    rw [Run.after_concat, List.countP_append, List.countP_append, hcount, hcount]
    omega

/-! ## Every login -/

/-- A login is accepted for the first user who answers to the name, if that user is not disabled and
has a hash that the password passes for, and fails in one way otherwise. It changes no data and
verifies one password. No password is accepted for a name that nobody has, or for a user who is
disabled or has no hash. However many logins there are among the operations of a run, they hash one
password together at most, and none if there is a decoy already. -/
theorem authenticate_exact (s : Store) (hasher : Hasher) (salt : List UInt8) (username : String) :
    (∀ password u, (s.authenticate hasher salt username password).1 = .ok u ↔
      s.Admits hasher username password u) ∧
    (∀ password, (∃ u, s.Admits hasher username password u) ∨
      (s.authenticate hasher salt username password).1 = .error .invalidCredentials) ∧
    (∀ password, s.Charged (s.authenticate hasher salt username password).2 hasher salt
      username) ∧
    ((∀ u, s.findUserByName? username = some u → u.disabled = true ∨ u.passwordHash = "") →
      ∀ password, (s.authenticate hasher salt username password).1 =
        .error .invalidCredentials) ∧
    ∀ run : List Operation,
      (Run.after apply s run).tally.verified = s.tally.verified + run.countP Operation.isLogin ∧
        ∃ decoys ≤ 1, (s.decoy ≠ none → decoys = 0) ∧ (Run.after apply s run).tally.hashed =
          s.tally.hashed + run.countP Operation.isHashing + decoys := by
  refine ⟨fun _ _ => authenticate_ok_iff, ?_, s.charged_authenticate hasher salt username, ?_, ?_⟩
  · intro password
    refine (s.authenticate_cases hasher salt username password).imp_left ?_
    rintro ⟨u, hok⟩
    exact ⟨u, authenticate_ok_iff.mp hok⟩
  · intro hnobody password
    rcases s.authenticate_cases hasher salt username password with ⟨u, hok⟩ | herror
    · have hadmits := authenticate_ok_iff.mp hok
      rcases hnobody u (findUserByName?_eq_some_iff.mpr ⟨hadmits.named, hadmits.first⟩) with
        hdisabled | hempty
      · rw [hadmits.active] at hdisabled
        cases hdisabled
      · exact absurd hempty hadmits.hashed
    · exact herror
  · intro run
    obtain ⟨hverified, hhashed, hstays⟩ := s.tally_after run
    refine ⟨hverified, (Run.after apply s run).decoy.isSome.toNat - s.decoy.isSome.toNat,
      ?_, ?_, ?_⟩
    · have hone := Bool.toNat_le (Run.after apply s run).decoy.isSome
      omega
    · intro hmade
      have hone := Bool.toNat_le (Run.after apply s run).decoy.isSome
      rw [Option.isSome_iff_ne_none.mpr hmade, Bool.toNat_true]
      omega
    · omega

def plainHasher : Hasher :=
  ⟨fun _ password => .ok ("plain$" ++ password), fun password hash => hash == "plain$" ++ password⟩

/-- One user can log in, one is disabled, and one has no password yet. -/
def staffed : Store :=
  { new none .epoch with
    records := { RecordSet.empty .epoch with
      users := [⟨"usr_1", "ada", "plain$secret", .owner, false, .epoch⟩,
        ⟨"usr_2", "dora", "plain$secret", .user, true, .epoch⟩,
        ⟨"usr_3", "pending", "", .user, false, .epoch⟩] } }

/-- Four logins that fail, the last one with a wrong password, and one that does not. -/
def knocks : List Operation :=
  [.authenticate plainHasher [] "nobody" decoyPassword,
    .authenticate plainHasher [] "dora" "secret", .authenticate plainHasher [] "pending" "",
    .authenticate plainHasher [] "ada" "wrong", .authenticate plainHasher [] " ADA " "secret"]

theorem authenticate_exact_staffed :
    (staffed.authenticate plainHasher [] " ADA " "secret").1 =
        .ok ⟨"usr_1", "ada", "plain$secret", .owner, false, .epoch⟩ ∧
      (∀ password, (staffed.authenticate plainHasher [] "pending" password).1 =
        .error .invalidCredentials) ∧
      (Run.after apply staffed knocks).tally.verified = 5 ∧
      (Run.after apply staffed knocks).tally.hashed ≤ 1 := by
  obtain ⟨-, -, -, hnever, hruns⟩ := authenticate_exact staffed plainHasher [] "pending"
  obtain ⟨hverified, decoys, hone, -, hhashed⟩ := hruns knocks
  refine ⟨?_, ?_, hverified, ?_⟩
  · refine ((authenticate_exact staffed plainHasher [] " ADA ").1 _ _).mpr ?_
    exact ⟨by decide +kernel, by decide +kernel, rfl, by decide, by decide +kernel⟩
  · refine hnever ?_
    intro u hu
    have hfound : staffed.findUserByName? "pending" =
        some ⟨"usr_3", "pending", "", .user, false, .epoch⟩ := by decide +kernel
    rw [hfound] at hu
    cases hu
    exact .inr rfl
  · rw [hhashed]
    exact Nat.le_trans (Nat.le_of_eq (Nat.zero_add decoys)) hone

end Store
end Turnstile
