import Turnstile.Service.Admin
import Turnstile.Proofs.Store.Writers

/-! Requests that change one record side by side. Each gives some of the fields, and the store
applies it to the record as it stands. Two requests that have no field in common leave behind what
one request with the fields of both would have left, whichever came first, and every use of a key is
still counted. -/

namespace Turnstile

open Store (replaceFirst)

namespace KeyEdit

theorem applyAll_append (edits more : List KeyEdit) (key : ApiKey) :
    applyAll (edits ++ more) key = applyAll more (applyAll edits key) :=
  List.foldl_append

/-- An edit that sets a field, if there is something to set it to. -/
theorem applyAll_given {β : Type} (edit : β → KeyEdit) (field : ApiKey → β)
    (h : ∀ key, apply key (edit (field key)) = key) (given : Option β) (key : ApiKey) :
    applyAll (given.toList.map edit) key = apply key (edit (given.getD (field key))) := by
  cases given with
  | none => exact (h key).symm
  | some value => rfl

end KeyEdit

/-- Of two values at most one is given. -/
def Apart {β : Type} (a b : Option β) : Prop := a = none ∨ b = none

theorem Apart.or_comm {β : Type} {a b : Option β} (h : Apart a b) : a.or b = b.or a := by
  rcases h with rfl | rfl
  · rw [Option.none_or, Option.or_none]
  · rw [Option.none_or, Option.or_none]

namespace Admin

/-! ## Requests for keys -/

namespace KeyRequest

variable (p q : KeyRequest) (key : ApiKey)

/-- No field is given by both requests. -/
structure Disjoint (p q : KeyRequest) : Prop where
  credential : Apart p.credential q.credential
  label : Apart p.label q.label
  userId : Apart p.userId q.userId
  enabled : Apart p.enabled q.enabled
  totalLimit : Apart p.totalLimit q.totalLimit
  concurrencyLimit : Apart p.concurrencyLimit q.concurrencyLimit
  compatibilityMode : Apart p.compatibilityMode q.compatibilityMode

/-- What either request gives. -/
def or : KeyRequest where
  credential := p.credential.or q.credential
  label := p.label.or q.label
  userId := p.userId.or q.userId
  enabled := p.enabled.or q.enabled
  totalLimit := p.totalLimit.or q.totalLimit
  concurrencyLimit := p.concurrencyLimit.or q.concurrencyLimit
  compatibilityMode := p.compatibilityMode.or q.compatibilityMode

/-- The key with what the request gives, credential and owner without the blanks around them. -/
def revised : ApiKey :=
  { key with
    credential := (p.credential.map Text.trim).getD key.credential
    label := p.label.getD key.label
    userId := (p.userId.map Text.trim).getD key.userId
    enabled := p.enabled.getD key.enabled
    totalLimit := p.totalLimit.getD key.totalLimit
    concurrencyLimit := p.concurrencyLimit.getD key.concurrencyLimit
    compatibilityMode := p.compatibilityMode.getD key.compatibilityMode }

theorem applyAll_edits : KeyEdit.applyAll p.edits = p.revised := by
  have htrimmed (given : Option String) (edit : String → KeyEdit) :
      (given.toList.map fun s => edit (Text.trim s)) = (given.map Text.trim).toList.map edit := by
    cases given <;> simp
  funext key
  rw [edits, htrimmed _ .credential, htrimmed _ .userId]
  simp only [KeyEdit.applyAll_append,
    KeyEdit.applyAll_given .credential ApiKey.credential fun _ => rfl,
    KeyEdit.applyAll_given .label ApiKey.label fun _ => rfl,
    KeyEdit.applyAll_given .userId ApiKey.userId fun _ => rfl,
    KeyEdit.applyAll_given .enabled ApiKey.enabled fun _ => rfl,
    KeyEdit.applyAll_given .totalLimit ApiKey.totalLimit fun _ => rfl,
    KeyEdit.applyAll_given .concurrencyLimit ApiKey.concurrencyLimit fun _ => rfl,
    KeyEdit.applyAll_given .compatibilityMode ApiKey.compatibilityMode fun _ => rfl]
  simp only [KeyEdit.apply, revised]

theorem revised_revised : p.revised (q.revised key) = (p.or q).revised key := by
  simp only [revised, or, Option.map_or, Option.getD_or]

theorem or_self : p.or p = p := by
  simp only [or, Option.or_self]

variable {p q}

theorem Disjoint.or_comm (h : p.Disjoint q) : p.or q = q.or p := by
  simp only [or, h.credential.or_comm, h.label.or_comm, h.userId.or_comm, h.enabled.or_comm,
    h.totalLimit.or_comm, h.concurrencyLimit.or_comm, h.compatibilityMode.or_comm]

end KeyRequest

/-- The store updates a key as one of two requests asks. -/
def keyWriters (p q : KeyRequest) : Writers := fun who id =>
  .updateKey id (KeyEdit.applyAll (who.pick p q).edits)

theorem shared_keyCell {p q : KeyRequest} (h : p.Disjoint q) (keys : List ApiKey) (k : String) :
    (keyCell keys k).Shared fun who => (who.pick p q).revised where
  again who c := by rw [KeyRequest.revised_revised, KeyRequest.or_self]
  commute c := by
    dsimp only [Writer.pick]
    rw [KeyRequest.revised_revised, KeyRequest.revised_revised, h.or_comm]
  use who c := rfl
  steady who c d hc hd := by
    refine Cell.steady_of_name ApiKey.credential (fits_keyCell_congr keys k) ?_ hc hd
    cases hgiven : (who.pick p q).credential with
    | none =>
      refine .inl fun c => ?_
      simp only [KeyRequest.revised, hgiven, Option.map_none, Option.getD_none]
    | some text =>
      refine .inr ⟨Text.trim text, fun c => ?_⟩
      simp only [KeyRequest.revised, hgiven, Option.map_some, Option.getD_some]
  fits_use c := fits_keyCell_congr keys k _ _ rfl

/-! ## Requests for users -/

/-- What a request gives for a user, once its role was read and its password was hashed. -/
structure UserChange where
  username : Option String := none
  passwordHash : Option String := none
  role : Option Role := none
  disabled : Option Bool := none

namespace UserChange

variable (p q : UserChange) (u : User)

/-- No field is given by both. -/
structure Disjoint (p q : UserChange) : Prop where
  username : Apart p.username q.username
  passwordHash : Apart p.passwordHash q.passwordHash
  role : Apart p.role q.role
  disabled : Apart p.disabled q.disabled

/-- What either gives. -/
def or : UserChange where
  username := p.username.or q.username
  passwordHash := p.passwordHash.or q.passwordHash
  role := p.role.or q.role
  disabled := p.disabled.or q.disabled

/-- The patch of a request that gives this; every patch of a request is one of these. -/
def patch : User → User :=
  patchUser { username := p.username, disabled := p.disabled } p.role p.passwordHash

theorem patch_eq (request : UserRequest) (role : Option Role) (hash : Option String) :
    patchUser request role hash = patch ⟨request.username, hash, role, request.disabled⟩ :=
  rfl

/-- The user with what is given, the name without the blanks around it. -/
def revised : User :=
  { u with
    username := (p.username.map Text.trim).getD u.username
    passwordHash := p.passwordHash.getD u.passwordHash
    role := p.role.getD u.role
    disabled := p.disabled.getD u.disabled }

theorem revised_revised : p.revised (q.revised u) = (p.or q).revised u := by
  simp only [revised, or, Option.map_or, Option.getD_or]

theorem or_self : p.or p = p := by
  simp only [or, Option.or_self]

theorem tidied_patch :
    User.tidied p.patch u = p.revised { u with username := Text.trim u.username } := by
  cases hname : p.username <;> simp [User.tidied, patch, patchUser, revised, hname]

/-- The second update leaves what both give. -/
theorem tidied_tidied :
    User.tidied p.patch (User.tidied q.patch u) =
      (p.or q).revised { u with username := Text.trim u.username } := by
  rw [tidied_patch, tidied_patch, ← revised_revised]
  cases hname : q.username <;> simp [revised, hname, Text.trim_trim]

variable {p q}

theorem Disjoint.or_comm (h : p.Disjoint q) : p.or q = q.or p := by
  simp only [or, h.username.or_comm, h.passwordHash.or_comm, h.role.or_comm, h.disabled.or_comm]

end UserChange

/-- The store updates a user as one of two requests asks. -/
def userWriters (p q : UserChange) : Writers := fun who id => .updateUser id (who.pick p q).patch

theorem shared_userCell {p q : UserChange} (h : p.Disjoint q) (users : List User) (k : String) :
    (userCell users k).Shared fun who => User.tidied (who.pick p q).patch where
  again who u := by
    rw [UserChange.tidied_tidied, UserChange.or_self, UserChange.tidied_patch]
  commute u := by
    dsimp only [Writer.pick]
    rw [UserChange.tidied_tidied, UserChange.tidied_tidied, h.or_comm]
  use who u := rfl
  steady who u v hu hv := by
    refine Cell.steady_of_name (fun u : User => Text.trim u.username)
      (fits_userCell_congr users k) ?_ hu hv
    cases hgiven : (who.pick p q).username with
    | none =>
      refine .inl fun u => ?_
      simp only [UserChange.tidied_patch, UserChange.revised, hgiven, Option.map_none,
        Option.getD_none, Text.trim_trim]
    | some text =>
      refine .inr ⟨Text.trim text, fun u => ?_⟩
      simp only [UserChange.tidied_patch, UserChange.revised, hgiven, Option.map_some,
        Option.getD_some, Text.trim_trim]
  fits_use u := rfl

end Admin

/-! ## Side by side -/

namespace Store

open Admin (KeyRequest UserChange keyWriters userWriters)

variable {s : Store}

theorem losesNone_keys (hs : s.Sound) {key : ApiKey} (hkey : key ∈ s.apiKeys) {p q : KeyRequest}
    (hdisjoint : p.Disjoint q) {run : List Writers.Turn}
    (hrun : (keyWriters p q).Share key.id (SparesKey key.id) s run) :
    (keyWriters p q).LosesNone key.id s run
      (fun who => keyAdmits key.id s.apiKeys ((who.pick p q).revised key)) fun t =>
        t.apiKeys = replaceFirst (·.id == key.id)
          { (p.or q).revised key with
            usedCount := .ofNat (min ApiKey.greatestCount
              (key.usedCount.toNat + (keyWriters p q).uses (usesKey key.id) s run)) }
          s.apiKeys := by
  have hstored := keyWithId?_of_mem hs.keyIds hkey
  have hpatches (who : Writer) (id : String) (hid : Text.trim id = key.id) :
      (keyCell s.apiKeys key.id).Patches (who.pick p q).revised (keyWriters p q who id) := by
    rw [keyWriters, KeyRequest.applyAll_edits]
    exact patches_updateKey hstored hid fun _ => rfl
  have hholds : (keyCell s.apiKeys key.id).holds s key := ⟨(replaceFirst_self hstored).symm, rfl⟩
  have hfits : (keyCell s.apiKeys key.id).fits key = true := by
    rw [fits_keyCell]
    exact hs.keyAdmits hkey
  have hall := Cell.losesNone (usesKey key.id) (Admin.shared_keyCell hdisjoint s.apiKeys key.id)
    hpatches (fun t c op hc hop => holds_of_sparesKey hs.keyIds hstored hc hop) hholds hfits hrun
  rw [fits_keyCell] at hall
  refine ⟨hall.accepted, ?_, hall.again⟩
  intro hboth
  have hmerged := (hall.merged hboth).1
  dsimp only [Writer.pick, keyCell, Cell.ofList] at hmerged
  rw [hmerged, KeyRequest.revised_revised, ApiKey.iterate_recordUse]
  rfl

theorem losesNone_users (hs : s.Sound) {user : User} (hu : user ∈ s.users) {p q : UserChange}
    (hdisjoint : p.Disjoint q) {run : List Writers.Turn}
    (hrun : (userWriters p q).Share user.id SparesUsers s run) :
    (userWriters p q).LosesNone user.id s run
      (fun who => userAdmits user.id s.users ((who.pick p q).revised user)) fun t =>
        t.users = replaceFirst (·.id == user.id) ((p.or q).revised user) s.users := by
  have hstored : s.users.find? (·.id == user.id) = some user :=
    (find?_name_iff hs.userIds hu).mpr rfl
  have hpatches (who : Writer) (id : String) (hid : Text.trim id = user.id) :
      (userCell s.users user.id).Patches (User.tidied (who.pick p q).patch)
        (userWriters p q who id) :=
    patches_updateUser hstored hid fun _ => rfl
  have hholds : (userCell s.users user.id).holds s user := ⟨(replaceFirst_self hstored).symm, rfl⟩
  have hfits : (userCell s.users user.id).fits user = true := by
    rw [fits_userCell]
    exact hs.userAdmits hu
  have hspares (t : Store) (u : User) (op : Operation) (hc : (userCell s.users user.id).holds t u)
      (hop : SparesUsers t op) : (userCell s.users user.id).holds (t.apply op) u :=
    ⟨hop.trans hc.1, hc.2⟩
  have hall := Cell.losesNone (fun _ _ => false) (Admin.shared_userCell hdisjoint s.users user.id)
    hpatches hspares hholds hfits hrun
  have htidy : { user with username := Text.trim user.username } = user := by
    rw [(hs.records.users.rule user hu).trimmed]
  have hadmitted : (fun who : Writer => (userCell s.users user.id).fits
      (User.tidied (who.pick p q).patch user)) =
        fun who => userAdmits user.id s.users ((who.pick p q).revised user) := by
    funext who
    rw [fits_userCell, UserChange.tidied_patch, htidy]
  rw [hadmitted] at hall
  refine ⟨hall.accepted, ?_, hall.again⟩
  intro hboth
  have hmerged := (hall.merged hboth).1
  dsimp only [Writer.pick, userCell, Cell.ofList] at hmerged
  rw [hmerged, Function.iterate_id, UserChange.tidied_tidied, id, htidy]

/-- Two requests for one key, or for one user, that have no field in common do not get in each
other's way, however often each is applied. In between, requests on the key may be completed, and
anything may be done that changes no key, or no user. Whether a request is accepted is settled by
the records at the start. Once both were accepted, the record has the fields of both and is
otherwise as it was, but for the completions that count as uses of a key. -/
theorem patches_merge (hs : s.Sound) :
    (∀ key ∈ s.apiKeys, ∀ p q : KeyRequest, p.Disjoint q → ∀ run : List Writers.Turn,
      (keyWriters p q).Share key.id (SparesKey key.id) s run →
      (keyWriters p q).LosesNone key.id s run
        (fun who => keyAdmits key.id s.apiKeys ((who.pick p q).revised key)) fun t =>
          t.apiKeys = replaceFirst (·.id == key.id)
            { (p.or q).revised key with
              usedCount := .ofNat (min ApiKey.greatestCount
                (key.usedCount.toNat + (keyWriters p q).uses (usesKey key.id) s run)) }
            s.apiKeys) ∧
    ∀ user ∈ s.users, ∀ p q : UserChange, p.Disjoint q → ∀ run : List Writers.Turn,
      (userWriters p q).Share user.id SparesUsers s run →
      (userWriters p q).LosesNone user.id s run
        (fun who => userAdmits user.id s.users ((who.pick p q).revised user)) fun t =>
          t.users = replaceFirst (·.id == user.id) ((p.or q).revised user) s.users :=
  ⟨fun _ hkey _ _ hdisjoint _ hrun => losesNone_keys hs hkey hdisjoint hrun,
    fun _ hu _ _ hdisjoint _ hrun => losesNone_users hs hu hdisjoint hrun⟩

/-! ## A key and a user that are changed twice -/

def sharedKey : ApiKey := { ApiKey.fresh "tk_old" "old" .epoch with id := "key_1", usedCount := 3 }

def sharedUser : User := ⟨"usr_1", "ada", "", .user, false, .epoch⟩

def sharedStore : Store :=
  { new none .epoch with
    records := { RecordSet.empty .epoch with
      users := [sharedUser, ⟨"usr_2", "grace", "", .owner, false, .epoch⟩]
      apiKeys := [sharedKey, { ApiKey.fresh "tk_side" "" .epoch with id := "key_2" }] } }

def rotation : KeyRequest := { credential := some " tk_new ", totalLimit := some 9 }

def closure : KeyRequest := { label := some "closed", enabled := some false }

/-- The key gets another credential while a request on it is open, and the old one completes none.
Of three completions two count. -/
def crossedKeys : List Writers.Turn :=
  [.other (.beginRequest "tk_old"), .write .first " key_1", .other (.endRequest "tk_old" true),
    .other (.endRequest " tk_new" true), .write .second "key_1",
    .other (.endRequestById "key_1 " true), .other (.endRequestById "key_1" false),
    .write .first "key_1 "]

def promotion : UserChange := { username := some " Ada ", role := some .owner }

def lockOut : UserChange := { passwordHash := some "hash", disabled := some true }

def crossedUsers : List Writers.Turn :=
  [.write .second "usr_1", .other (.beginRequest "tk_old"), .write .first " usr_1",
    .write .second "usr_1 "]

/-- Each of the two records has the fields of both requests. -/
theorem patches_merge_crossed :
    sharedStore.Sound ∧ rotation.Disjoint closure ∧ promotion.Disjoint lockOut ∧
      (keyWriters rotation closure).Share "key_1" (SparesKey "key_1") sharedStore crossedKeys ∧
      (userWriters promotion lockOut).Share "usr_1" SparesUsers sharedStore crossedUsers ∧
      (Run.after (keyWriters rotation closure).step sharedStore crossedKeys).apiKeys =
        [{ sharedKey with
            credential := "tk_new", label := "closed", enabled := false, totalLimit := 9,
            usedCount := 5 },
          { ApiKey.fresh "tk_side" "" .epoch with id := "key_2" }] ∧
      (Run.after (userWriters promotion lockOut).step sharedStore crossedUsers).users =
        [⟨"usr_1", "Ada", "hash", .owner, true, .epoch⟩,
          ⟨"usr_2", "grace", "", .owner, false, .epoch⟩] := by
  have hs : sharedStore.Sound := by decide +kernel
  have hkeys : rotation.Disjoint closure :=
    ⟨.inr rfl, .inl rfl, .inl rfl, .inl rfl, .inr rfl, .inl rfl, .inl rfl⟩
  have husers : promotion.Disjoint lockOut := ⟨.inr rfl, .inl rfl, .inr rfl, .inl rfl⟩
  have hkeyRun : (keyWriters rotation closure).Share "key_1" (SparesKey "key_1") sharedStore
      crossedKeys := Run.forall_event_iff.mp (by decide +kernel)
  have huserRun : (userWriters promotion lockOut).Share "usr_1" SparesUsers sharedStore
      crossedUsers := Run.forall_event_iff.mp (by decide +kernel)
  obtain ⟨hkey, huser⟩ := patches_merge hs
  refine ⟨hs, hkeys, husers, hkeyRun, huserRun, ?_, ?_⟩
  · rw [(hkey sharedKey (by decide +kernel) _ _ hkeys _ hkeyRun).merged]
    · decide +kernel
    · rintro (_ | _)
      · exact ⟨by decide +kernel, " key_1", by simp [crossedKeys]⟩
      · exact ⟨by decide +kernel, "key_1", by simp [crossedKeys]⟩
  · rw [(huser sharedUser (by decide +kernel) _ _ husers _ huserRun).merged]
    · decide +kernel
    · rintro (_ | _)
      · exact ⟨by decide +kernel, " usr_1", by simp [crossedUsers]⟩
      · exact ⟨by decide +kernel, "usr_1", by simp [crossedUsers]⟩

end Store
end Turnstile
