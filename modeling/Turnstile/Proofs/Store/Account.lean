import Turnstile.Proofs.Store.Failure
import Turnstile.Proofs.Store.Soundness
import Turnstile.Proofs.Store.Users
import Turnstile.Proofs.Text.Case

/-! Accounts. A user has an account where nobody else answers to the user's name; every spelling of
the name then leads to that user. A new name and a changed one are checked against all others, so an
account is lost to no operation but a change or a deletion of its own user. -/

namespace Turnstile

open Store (replaceFirst)

/-- Two names are the same if they have one lower case. -/
theorem sameUsername_iff {a b : String} :
    sameUsername a b = true ↔ Text.toLower a = Text.toLower b := by
  rw [sameUsername, Bool.or_eq_true, beq_iff_eq]
  exact ⟨fun h => h.elim Text.toLower_eq_of_equalIgnoringAsciiCase id, .inr⟩

/-- The user is stored, and nobody else answers to the name. -/
structure Account (users : List User) (user : User) : Prop where
  stored : user ∈ users
  alone : ∀ v ∈ users, sameUsername v.username user.username = true → v = user

/-- No two users of a sound list answer to one name. -/
theorem account_of_kept {users : List User} {user : User} (h : UsersKept users)
    (hu : user ∈ users) : Account users user := by
  refine ⟨hu, fun v hv hsame => ?_⟩
  by_contra hne
  have hid : v.id ≠ user.id := fun heq => hne (List.inj_on_of_nodup_map h.ids hv hu heq)
  rw [h.clash_eq_false sameUsername_false_symm hv hu hid] at hsame
  cases hsame

/-! ## Lists of users -/

section Users

variable {users : List User} {user u found : User} {test : User → Bool}

theorem account_append (hfree : ∀ v ∈ users, sameUsername v.username u.username = false) :
    Account (users ++ [u]) u := by
  refine ⟨List.mem_append_right _ (List.mem_singleton_self u), fun v hv hsame => ?_⟩
  rcases List.mem_append.mp hv with hold | hnew
  · rw [hfree v hold] at hsame
    cases hsame
  · exact List.mem_singleton.mp hnew

theorem account_replaceFirst (hids : (users.map User.id).Nodup)
    (hfound : users.find? test = some found)
    (hfree : ∀ v ∈ users, v.id ≠ found.id → sameUsername v.username u.username = false) :
    Account (replaceFirst test u users) u := by
  obtain ⟨before, rest, husers, hreplaced⟩ := Store.replaceFirst_eq_append u hfound
  rw [hreplaced]
  refine ⟨by simp, fun v hv hsame => ?_⟩
  rw [husers, List.map_append, List.map_cons, List.nodup_middle, List.nodup_cons] at hids
  by_contra hne
  have hother : v ∈ before ++ rest := by
    simpa [hne] using hv
  have hid : v.id ≠ found.id := by
    intro heq
    refine hids.1 ?_
    rw [← List.map_append, ← heq]
    exact List.mem_map_of_mem hother
  have hmem : v ∈ users := by
    rw [husers]
    simp only [List.mem_append, List.mem_cons] at hother ⊢
    exact hother.imp_right .inr
  rw [hfree v hmem hid] at hsame
  cases hsame

namespace Account

variable (h : Account users user)

include h

theorem append (hapart : sameUsername user.username u.username = false) :
    Account (users ++ [u]) user := by
  refine ⟨List.mem_append_left _ h.stored, fun v hv hsame => ?_⟩
  rcases List.mem_append.mp hv with hold | hnew
  · exact h.alone v hold hsame
  · rw [List.mem_singleton.mp hnew, sameUsername_comm, hapart] at hsame
    cases hsame

theorem replaceFirst (hfound : users.find? test = some found) (htest : test user = false)
    (hapart : sameUsername user.username u.username = false) :
    Account (Store.replaceFirst test u users) user := by
  obtain ⟨before, rest, husers, hreplaced⟩ := Store.replaceFirst_eq_append u hfound
  have hother : user ≠ found := by
    rintro rfl
    rw [List.find?_some hfound] at htest
    cases htest
  have hstored := h.stored
  have halone := h.alone
  rw [husers] at hstored halone
  rw [hreplaced]
  have hkept : user ∈ before ∨ user ∈ rest := by simpa [hother] using hstored
  refine ⟨?_, fun v hv hsame => ?_⟩
  · simp only [List.mem_append, List.mem_cons]
    exact hkept.imp_right .inr
  rcases List.mem_append.mp hv with hbefore | hrest
  · exact halone v (List.mem_append_left _ hbefore) hsame
  · rcases List.mem_cons.mp hrest with rfl | hrest
    · rw [sameUsername_comm, hapart] at hsame
      cases hsame
    · exact halone v (List.mem_append_right _ (List.mem_cons_of_mem _ hrest)) hsame

theorem filter (htest : test user = true) : Account (users.filter test) user :=
  ⟨List.mem_filter.mpr ⟨h.stored, htest⟩,
    fun v hv hsame => h.alone v (List.mem_of_mem_filter hv) hsame⟩

/-- Every spelling of the name leads to the user. -/
theorem find?_eq_some {name : String} (hname : sameUsername user.username name = true) :
    users.find? (fun v => sameUsername v.username name) = some user := by
  have hany : users.any (fun v => sameUsername v.username name) = true :=
    List.any_eq_true.mpr ⟨user, h.stored, hname⟩
  obtain ⟨v, hv⟩ := find?_of_any hany
  have hsame : sameUsername v.username user.username = true := by
    have hfound : sameUsername v.username name = true := by simpa using List.find?_some hv
    rw [sameUsername_iff] at hname hfound ⊢
    rw [hfound, hname]
  rw [hv, h.alone v (List.mem_of_find?_eq_some hv) hsame]

end Account

end Users

/-! ## Operations -/

namespace Operation

/-- The operation is on keys, or on neither users nor keys. -/
def LeavesUsers : Operation → Prop
  | .load .. | .upsertUser .. | .updateUser .. | .deleteUser .. => False
  | _ => True

/-- The operation is none on the user with that id, and turns to no other records or file. -/
def Spares (id : String) : Operation → Prop
  | .upsertUser _ _ given => given.id = ""
  | .updateUser other _ | .deleteUser other => Text.trim other ≠ id
  | .load .. | .setPath _ => False
  | _ => True

end Operation

namespace Store

variable {s t : Store} {user : User} {op : Operation}

theorem users_of_records (h : t.records = s.records) : t.users = s.users := by
  rw [users, h, users]

theorem users_apply (h : op.LeavesUsers) : (s.apply op).users = s.users := by
  cases op with
  | load | upsertUser | updateUser | deleteUser => exact h.elim
  | save => rfl
  | setPath path =>
    simp only [apply]
    exact users_of_records (records_setPath path)
  | hashPassword hasher salt password =>
    simp only [apply]
    exact users_of_records (records_hashPassword hasher salt password)
  | authenticate hasher salt username password =>
    simp only [apply]
    exact users_of_records (records_authenticate hasher salt username password)
  | upsertKey | updateKey | deleteKey | resetUsage =>
    simp only [apply, upsertKey, updateKey, deleteKey, resetUsage]
    repeat' split
    all_goals rfl
  | beginRequest credential =>
    rcases s.beginRequest_cases credential with ⟨e, he⟩ | ⟨key, -, -, -, ⟨-, he⟩ | ⟨-, -, he⟩⟩
    all_goals simp only [apply, he]
    rfl
  | endRequest credential counted =>
    rcases s.endRequest_cases credential counted with ⟨e, he⟩ | ⟨test, key, -, he⟩
    all_goals simp only [apply, he]
    rfl
  | endRequestById id counted =>
    rcases s.endRequestById_cases id counted with ⟨-, he⟩ | ⟨key, -, he⟩
    all_goals simp only [apply, he]
    rfl
  | releaseSlots id =>
    rcases s.releaseSlots_cases id with ⟨-, he⟩ | ⟨-, he⟩
    all_goals simp only [apply, he]
    rfl

end Store

theorem Operation.Spares.path_apply {id : String} {op : Operation} (h : op.Spares id) (s : Store) :
    (s.apply op).path = s.path := by
  refine Store.path_apply ?_
  rintro other rfl
  exact h

namespace Account

variable {s : Store} {user : User} {op : Operation}

theorem congr {t : Store} (h : Account s.users user) (husers : t.users = s.users) :
    Account t.users user := by
  rw [husers]
  exact h

/-- No operation that fails has an effect on users. -/
theorem of_keeps {α : Type} {outcome : Outcome α} (h : Account s.users user)
    (hkeeps : s.Keeps outcome) (hok : ∀ a t, outcome = (.ok a, t) → Account t.users user) :
    Account outcome.2.users user := by
  cases hkeeps with
  | error => exact h
  | ok a => exact hok a _ rfl

theorem apply (h : Account s.users user) (hop : op.Spares user.id) :
    Account (s.apply op).users user := by
  cases op with
  | load | setPath => exact hop.elim
  | upsertUser freshId now given =>
    refine h.of_keeps (Store.keeps_upsertUser freshId now given) fun u t hstored => ?_
    obtain ⟨-, -, hfree, rfl⟩ := Store.upsertUser_of_new hop hstored
    exact h.append (hfree user h.stored)
  | updateUser id patch =>
    refine h.of_keeps (Store.keeps_updateUser id patch) fun u t hstored => ?_
    obtain ⟨found, hfound, -, -, hfree, rfl⟩ := Store.updateUser_of_ok hstored
    have hother : user.id ≠ Text.trim id := fun heq => hop heq.symm
    exact h.replaceFirst hfound (by simpa using hother) (hfree user h.stored hother)
  | deleteUser id =>
    have hother : user.id ≠ Text.trim id := fun heq => hop heq.symm
    simp only [Store.apply, Store.deleteUser]
    split
    · exact h
    · split
      · exact h.filter (by simpa using hother)
      · exact h
  | _ => exact h.congr (Store.users_apply trivial)

end Account

namespace Store

variable {s : Store} {user : User} {username password : String}

/-- Every spelling of the name, with blanks around it or none, logs the user in. -/
theorem authenticate_of_account (h : Account s.users user) (hactive : user.disabled = false)
    (hnamed : user.username ≠ "") (hhash : user.passwordHash ≠ "")
    (hname : sameUsername user.username (Text.trim username) = true) {hasher : Hasher}
    (hverify : hasher.verify password user.passwordHash = true) (salt : List UInt8) :
    (s.authenticate hasher salt username password).1 = .ok user := by
  have hfilled : Text.trim username ≠ "" := by
    intro hempty
    rw [hempty, sameUsername_iff] at hname
    exact hnamed (Text.toLower_eq_empty_iff.mp (hname.trans (Text.toLower_eq_empty_iff.mpr rfl)))
  have hfound : s.findUserByName? username = some user :=
    findUserByName?_eq_some_iff.mpr ⟨hfilled, h.find?_eq_some hname⟩
  have hcandidate : s.loginCandidate? username = some user := by
    rw [loginCandidate?, hfound]
    simp [hactive, hhash]
  rw [authenticate_fst, hcandidate]
  exact if_pos hverify

end Store

end Turnstile
