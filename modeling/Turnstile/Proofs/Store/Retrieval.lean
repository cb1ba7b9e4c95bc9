import Turnstile.Proofs.Store.Account
import Turnstile.Proofs.Store.Credential
import Turnstile.Proofs.Store.Holder

/-! Retrieval. What an upsert has answered stays stored until an operation addressed to it succeeds,
and for as long as it is stored every spelling of its name leads to it, or its credential. Ids are
kept as they were given and looked up without the blanks around them, so a record can be found by
its id, and deleted by it, exactly if the id has no blanks around it. -/

namespace Turnstile

/-! ## Records with distinct ids -/

section Records

variable {α : Type} {name : α → String} {l : List α} {a b c : α} {k : String} {test : α → Bool}

theorem find?_name_iff (hnodup : (l.map name).Nodup) (ha : a ∈ l) :
    l.find? (name · == k) = some a ↔ name a = k := by
  refine ⟨Lookup.name_of_find?, ?_⟩
  rintro rfl
  have hany : l.any (name · == name a) = true :=
    List.any_eq_true.mpr ⟨a, ha, beq_self_eq_true (name a)⟩
  obtain ⟨found, hfound⟩ := find?_of_any hany
  rw [hfound, List.inj_on_of_nodup_map hnodup (List.mem_of_find?_eq_some hfound) ha
    (Lookup.name_of_find? hfound)]

/-- Taking away all records of a name takes away just this one exactly if it is its name. -/
theorem filter_name_eq_erase_iff [DecidableEq α] (hnodup : (l.map name).Nodup) (ha : a ∈ l) :
    l.filter (name · != k) = l.erase a ↔ name a = k := by
  have herase := (List.Nodup.of_map name hnodup).erase_eq_filter a
  constructor
  · intro h
    by_contra hne
    have hkept : a ∈ l.filter (name · != k) := List.mem_filter.mpr ⟨ha, bne_iff_ne.mpr hne⟩
    rw [h, herase] at hkept
    simpa using (List.mem_filter.mp hkept).2
  · rintro rfl
    rw [herase]
    refine List.filter_congr ?_
    intro other hother
    rw [Bool.eq_iff_iff, bne_iff_ne, bne_iff_ne]
    exact not_congr ⟨List.inj_on_of_nodup_map hnodup hother ha, fun h => h ▸ rfl⟩

/-- What a deletion by a name comes to: it removes just this record exactly if it is its name. -/
theorem deletion_iff [DecidableEq α] (remove : String → List α → Store) {s : Store}
    {e : StoreError} (hremove : ∀ k k' l l', remove k l = remove k' l' → l = l')
    (hnodup : (l.map name).Nodup) (ha : a ∈ l) (hne : name a ≠ "") :
    (if k.isEmpty then (.error e, s)
      else if l.any (name · == k) then (.ok (), remove k (l.filter (name · != k)))
      else (.error e, s) : Outcome Unit) = (.ok (), remove (name a) (l.erase a)) ↔
        k = name a := by
  rw [eq_comm (a := k), ← filter_name_eq_erase_iff hnodup ha]
  constructor
  · intro hdeleted
    split at hdeleted
    · cases (Prod.mk.inj hdeleted).1
    · split at hdeleted
      · exact hremove _ _ _ _ (Prod.mk.inj hdeleted).2
      · cases (Prod.mk.inj hdeleted).1
  · intro herase
    obtain rfl := (filter_name_eq_erase_iff hnodup ha).mp herase
    have hsome : ¬ (name a).isEmpty = true := by simpa using hne
    have hstored : l.any (name · == name a) = true :=
      List.any_eq_true.mpr ⟨a, ha, beq_self_eq_true (name a)⟩
    rw [if_neg hsome, if_pos hstored, herase]

theorem mem_replaceFirst_of_ne (hb : l.find? test = some b) (ha : a ∈ l) (hne : a ≠ b) :
    a ∈ Store.replaceFirst test c l := by
  obtain ⟨before, rest, rfl, hr⟩ := Store.replaceFirst_eq_append c hb
  have hkept : a ∈ before ∨ a ∈ rest := by simpa [hne] using ha
  rw [hr, List.mem_append, List.mem_cons]
  exact hkept.imp_right .inr

theorem mem_replaceFirst_self (hb : l.find? test = some b) : c ∈ Store.replaceFirst test c l := by
  obtain ⟨before, rest, -, hr⟩ := Store.replaceFirst_eq_append c hb
  rw [hr]
  simp

end Records

namespace Store

variable {s : Store} {user : User} {key : ApiKey}

/-! ## Stored users -/

/-- Every spelling of the name leads to the user; the id does exactly if it is trimmed. -/
theorem Sound.account (h : s.Sound) (hu : user ∈ s.users) : Account s.users user :=
  account_of_kept h.records.users hu

theorem Sound.findUserByName? (h : s.Sound) (hu : user ∈ s.users) {name : String}
    (hname : Text.toLower (Text.trim name) = Text.toLower user.username) :
    s.findUserByName? name = some user := by
  have hnamed : user.username ≠ "" := by
    intro hempty
    have := (h.records.users.rule user hu).nonempty
    rw [hempty] at this
    exact absurd this (by decide)
  refine findUserByName?_eq_some_iff.mpr ⟨?_, ?_⟩
  · intro hblank
    rw [hblank, Text.toLower_eq_empty_iff.mpr rfl] at hname
    exact hnamed (Text.toLower_eq_empty_iff.mp hname.symm)
  · exact (h.account hu).find?_eq_some (sameUsername_iff.mpr hname.symm)

theorem Sound.userIds (h : s.Sound) : (s.users.map User.id).Nodup := h.records.users.ids

theorem Sound.keyIds (h : s.Sound) : (s.apiKeys.map ApiKey.id).Nodup := h.records.apiKeys.ids

theorem Sound.findUser?_iff (h : s.Sound) (hu : user ∈ s.users) :
    s.findUser? user.id = some user ↔ Text.trim user.id = user.id := by
  rw [findUser?_eq_some_iff, find?_name_iff h.userIds hu, eq_comm (a := user.id)]
  refine and_iff_right_of_imp fun htrim => ?_
  rw [htrim]
  exact h.records.users.ids_ne user hu

theorem Sound.deleteUser_iff (h : s.Sound) (hu : user ∈ s.users) :
    s.deleteUser user.id = (.ok (), s.withUsers (s.users.erase user)) ↔
      Text.trim user.id = user.id := by
  rw [deleteUser]
  exact deletion_iff (fun _ => s.withUsers) (fun _ _ _ _ h => congrArg users h) h.userIds hu
    (h.records.users.ids_ne user hu)

/-! ## Stored keys -/

theorem Sound.findKey? (h : s.Sound) (hk : key ∈ s.apiKeys) {text : String}
    (htext : Text.trim text = key.credential) : s.findKey? text = some key := by
  have hfilled : key.credential ≠ "" := by
    intro hempty
    have hlength := (h.records.apiKeys.rule key hk).nonempty
    rw [hempty] at hlength
    exact absurd hlength (by decide)
  rw [findKey?_eq_some_iff, htext]
  exact ⟨hfilled, (keyWithCredential?_eq_some_iff h.distinctCredentials).mpr ⟨hk, rfl⟩⟩

theorem Sound.findKeyById?_iff (h : s.Sound) (hk : key ∈ s.apiKeys) :
    s.findKeyById? key.id = some key ↔ Text.trim key.id = key.id := by
  have hfound := find?_name_iff (k := Text.trim key.id) h.keyIds hk
  rw [eq_comm (b := key.id), ← hfound, findKeyById?_eq, keyWithId?]
  split
  · rename_i hempty
    rw [hfound, hempty]
    simpa using h.records.apiKeys.ids_ne key hk
  · rfl

theorem Sound.deleteKey_iff (h : s.Sound) (hk : key ∈ s.apiKeys) :
    s.deleteKey key.id = (.ok (), { s.withApiKeys (s.apiKeys.erase key) with
      inFlight := s.inFlight.remove key.id }) ↔ Text.trim key.id = key.id := by
  rw [deleteKey]
  exact deletion_iff
    (fun id keys => { s.withApiKeys keys with inFlight := s.inFlight.remove id })
    (fun _ _ _ _ h => congrArg apiKeys h) h.keyIds hk (h.records.apiKeys.ids_ne key hk)

/-! ## Operations -/

end Store

namespace Operation

/-- The operation is one on the user with this id, or turns to other records. -/
def AddressesUser (id : String) : Operation → Prop
  | .upsertUser _ _ given => given.id = id
  | .updateUser other _ | .deleteUser other => Text.trim other = id
  | .load .. => True
  | _ => False

/-- The operation is one that changes this key where it is found, or turns to other records. -/
def AddressesKey (key : ApiKey) : Operation → Prop
  | .upsertKey _ _ given => given.id = key.id
  | .updateKey id _ | .deleteKey id => Text.trim id = key.id
  | .resetUsage id => id = key.id
  | .endRequestById id counted => counted = true ∧ Text.trim id = key.id
  | .endRequest credential counted => counted = true ∧ Text.trim credential = key.credential
  | .load .. => True
  | _ => False

end Operation

namespace Store

variable {s : Store} {user : User} {key : ApiKey} {op : Operation}

/-- An upsert answers this user. -/
def StoresUser (user : User) (s : Store) : Operation → Prop
  | .upsertUser freshId now given => (s.upsertUser freshId now given).1 = .ok user
  | _ => False

/-- An upsert answers this key. -/
def StoresKey (key : ApiKey) (s : Store) : Operation → Prop
  | .upsertKey freshId now given => (s.upsertKey freshId now given).1 = .ok key
  | _ => False

/-- An operation on this user succeeds. -/
def ChangesUser (user : User) (s : Store) (op : Operation) : Prop :=
  op.AddressesUser user.id ∧ ∃ reply, s.answer op = .ok reply

/-- An operation on this key succeeds. -/
def ChangesKey (key : ApiKey) (s : Store) (op : Operation) : Prop :=
  op.AddressesKey key ∧ ∃ reply, s.answer op = .ok reply

theorem upsertUser_cases (s : Store) (freshId : String) (now : Moment) (given : User) :
    (∃ e, s.upsertUser freshId now given = (.error e, s)) ∨
      (∃ stored, s.upsertUser freshId now given =
        (.ok stored, s.withUsers (s.users ++ [stored]))) ∨
      ∃ found stored, s.users.find? (·.id == given.id) = some found ∧
        s.upsertUser freshId now given =
          (.ok stored, s.withUsers (replaceFirst (·.id == given.id) stored s.users)) := by
  unfold upsertUser
  dsimp only
  split
  · exact .inl ⟨_, rfl⟩
  · split
    · exact .inl ⟨_, rfl⟩
    · split
      · exact .inr (.inl ⟨_, rfl⟩)
      · split
        · rename_i hstored
          obtain ⟨found, hfound⟩ := find?_of_any hstored
          exact .inr (.inr ⟨found, _, hfound, rfl⟩)
        · exact .inr (.inl ⟨_, rfl⟩)

theorem mem_users_of_storesUser (h : s.StoresUser user op) : user ∈ (s.apply op).users := by
  cases op with
  | upsertUser freshId now given =>
    simp only [StoresUser, apply] at h ⊢
    rcases s.upsertUser_cases freshId now given with
      ⟨e, he⟩ | ⟨stored, he⟩ | ⟨found, stored, hfound, he⟩
    · rw [he] at h
      cases h
    · rw [he] at h ⊢
      cases h
      exact List.mem_append_right _ (List.mem_singleton_self user)
    · rw [he] at h ⊢
      cases h
      exact mem_replaceFirst_self hfound
  | _ => exact h.elim

/-- A user stays until an operation on it succeeds. -/
theorem mem_users_apply (hu : user ∈ s.users) (h : ¬ s.ChangesUser user op) :
    user ∈ (s.apply op).users := by
  rcases s.same_or_answered op with hsame | hreply
  · rw [users_of_records hsame.records]
    exact hu
  have hother : ¬ op.AddressesUser user.id := fun haddresses => h ⟨haddresses, hreply⟩
  have hleft (other : Operation) (hleaves : other.LeavesUsers) :
      user ∈ (s.apply other).users := by
    rw [users_apply hleaves]
    exact hu
  -- the record that is replaced or deleted has another id
  have hne {k : String} {found : User} (hk : k ≠ user.id)
      (hfound : s.users.find? (·.id == k) = some found) : user ≠ found := by
    rintro rfl
    exact hk (Lookup.name_of_find? hfound).symm
  cases op with
  | load => exact absurd trivial hother
  | upsertUser freshId now given =>
    rw [apply]
    rcases s.upsertUser_cases freshId now given with
      ⟨e, he⟩ | ⟨stored, he⟩ | ⟨found, stored, hfound, he⟩
    · rw [he]
      exact hu
    · rw [he]
      exact List.mem_append_left _ hu
    · rw [he]
      exact mem_replaceFirst_of_ne hfound hu (hne hother hfound)
  | updateUser id patch =>
    rw [apply]
    rcases hupdated : s.updateUser id patch with ⟨e | stored, t⟩
    · obtain ⟨reply, hreply⟩ := hreply
      rw [answer, hupdated] at hreply
      cases hreply
    · obtain ⟨found, hfound, -, -, -, rfl⟩ := updateUser_of_ok hupdated
      exact mem_replaceFirst_of_ne hfound hu (hne hother hfound)
  | deleteUser id =>
    simp only [apply, deleteUser]
    split
    · exact hu
    · split
      · exact List.mem_filter.mpr ⟨hu, bne_iff_ne.mpr (Ne.symm hother)⟩
      · exact hu
  | _ => exact hleft _ trivial

theorem mem_apiKeys_of_storesKey (h : s.StoresKey key op) : key ∈ (s.apply op).apiKeys := by
  cases op with
  | upsertKey freshId now given =>
    simp only [StoresKey, apply] at h ⊢
    rcases s.upsertKey_cases freshId now given with ⟨e, he⟩ | ⟨stored, he⟩ | hreplaces
    · rw [he] at h
      cases h
    · rw [he] at h ⊢
      cases h
      exact List.mem_append_right _ (List.mem_singleton_self key)
    · obtain ⟨found, hfound⟩ := hreplaces.exists_found
      rw [hreplaces.eq] at h ⊢
      cases h
      exact mem_replaceFirst_self hfound
  | _ => exact h.elim

theorem mem_apiKeys_completeOn (hk : key ∈ s.apiKeys) {test : ApiKey → Bool} {found : ApiKey}
    (hfound : s.apiKeys.find? test = some found) {counted : Bool}
    (h : ¬ (counted = true ∧ found = key)) :
    key ∈ (s.completeOn test found counted).2.apiKeys := by
  by_cases hself : found = key
  · have hcounted : counted = false := Bool.eq_false_iff.mpr fun hcounted => h ⟨hcounted, hself⟩
    change key ∈ replaceFirst test (if counted then found.recordUse else found) s.apiKeys
    rw [hcounted, if_neg Bool.false_ne_true, replaceFirst_self hfound]
    exact hk
  · exact mem_replaceFirst_of_ne hfound hk (Ne.symm hself)

/-- A key stays as it is until an operation that changes it succeeds. -/
theorem mem_apiKeys_apply (hk : key ∈ s.apiKeys) (h : ¬ s.ChangesKey key op) :
    key ∈ (s.apply op).apiKeys := by
  rcases s.same_or_answered op with hsame | hreply
  · rw [apiKeys, hsame.records]
    exact hk
  have hother : ¬ op.AddressesKey key := fun haddresses => h ⟨haddresses, hreply⟩
  have hleft (other : Operation) (hleaves : other.LeavesKeys) :
      key ∈ (s.apply other).apiKeys := by
    rw [apiKeys_apply hleaves]
    exact hk
  -- the record that is replaced or deleted has another id
  have hne {k : String} {found : ApiKey} (hother : k ≠ key.id)
      (hfound : s.keyWithId? k = some found) : key ≠ found := by
    rintro rfl
    exact hother (Lookup.name_of_find? hfound).symm
  cases op with
  | load => exact absurd trivial hother
  | upsertKey freshId now given =>
    rw [apply]
    rcases s.upsertKey_cases freshId now given with ⟨e, he⟩ | ⟨stored, he⟩ | hreplaces
    · rw [he]
      exact hk
    · rw [he]
      exact List.mem_append_left _ hk
    · obtain ⟨found, hfound⟩ := hreplaces.exists_found
      rw [hreplaces.eq]
      exact mem_replaceFirst_of_ne hfound hk (hne hother hfound)
  | updateKey id patch =>
    rw [apply]
    rcases s.updateKey_cases id patch with ⟨e, he⟩ | ⟨stored, hreplaces⟩
    · rw [he]
      exact hk
    · obtain ⟨found, hfound⟩ := hreplaces.exists_found
      rw [hreplaces.eq]
      exact mem_replaceFirst_of_ne hfound hk (hne hother hfound)
  | deleteKey id =>
    simp only [apply, deleteKey]
    split
    · exact hk
    · split
      · exact List.mem_filter.mpr ⟨hk, bne_iff_ne.mpr (Ne.symm hother)⟩
      · exact hk
  | resetUsage id =>
    simp only [apply, resetUsage]
    split
    · exact hk
    · rename_i found hfound
      exact mem_replaceFirst_of_ne hfound hk (hne hother hfound)
  | endRequest credential counted =>
    rw [apply, endRequest_eq]
    split
    · exact hk
    · rename_i found hfound
      have hkey := (findKey?_eq_some_iff.mp hfound).2
      refine mem_apiKeys_completeOn hk hkey fun hself => hother ⟨hself.1, ?_⟩
      rw [← hself.2]
      exact (credential_of_keyWithCredential? hkey).2.symm
  | endRequestById id counted =>
    rw [apply]
    rcases s.endRequestById_cases id counted with ⟨-, he⟩ | ⟨found, hfound, he⟩
    · rw [he]
      exact hk
    · rw [he]
      refine mem_apiKeys_completeOn hk hfound fun hself => hother ⟨hself.1, ?_⟩
      rw [← hself.2]
      exact (Lookup.name_of_find? hfound).symm
  | _ => exact hleft _ trivial

/-! ## Runs -/

/-- Every spelling of the name leads to the user. The id leads to it, and a deletion by the id
removes it and nothing else, exactly if the id has no blanks around it. -/
structure RetrievesUser (s : Store) (user : User) : Prop where
  byName : ∀ name, Text.toLower (Text.trim name) = Text.toLower user.username →
    s.findUserByName? name = some user
  byId : s.findUser? user.id = some user ↔ Text.trim user.id = user.id
  deleted : s.deleteUser user.id = (.ok (), s.withUsers (s.users.erase user)) ↔
    Text.trim user.id = user.id

/-- The credential leads to the key, with blanks around it or none. The id leads to it, and a
deletion by the id removes it with its requests in flight and nothing else, exactly if the id has no
blanks around it. -/
structure RetrievesKey (s : Store) (key : ApiKey) : Prop where
  byCredential : ∀ text, Text.trim text = key.credential → s.findKey? text = some key
  byId : s.findKeyById? key.id = some key ↔ Text.trim key.id = key.id
  deleted : s.deleteKey key.id = (.ok (), { s.withApiKeys (s.apiKeys.erase key) with
    inFlight := s.inFlight.remove key.id }) ↔ Text.trim key.id = key.id

theorem Sound.retrievesUser (h : s.Sound) (hu : user ∈ s.users) : s.RetrievesUser user :=
  ⟨fun _ => h.findUserByName? hu, h.findUser?_iff hu, h.deleteUser_iff hu⟩

theorem Sound.retrievesKey (h : s.Sound) (hk : key ∈ s.apiKeys) : s.RetrievesKey key :=
  ⟨fun _ => h.findKey? hk, h.findKeyById?_iff hk, h.deleteKey_iff hk⟩

theorem sound_of_not_load (h : s.Sound) {run : List Operation}
    (hload : ∀ op ∈ run, ∀ files now, op ≠ .load files now) (hids : ∀ op ∈ run, op.KeepsIds)
    (hfresh : ∀ past op, past ++ [op] <+: run → op.Fresh (Run.after apply s past)) :
    (Run.after apply s run).Sound := by
  have hprefix : ∀ past, past <+: run → (Run.after apply s past).Sound := by
    refine Run.prefix_induction h ?_
    intro past op hp ih
    have hop : op ∈ run := hp.subset (List.mem_append_right past (List.mem_singleton_self op))
    rw [Run.after_concat]
    refine ih.apply (hids op hop) (hfresh past op hp) ?_
    cases op with
    | load files now => exact absurd rfl (hload _ hop files now)
    | _ => trivial
  exact hprefix run List.prefix_rfl

/-- In every run from an empty store, what an upsert answered stays stored until an operation on it
succeeds, and all that is stored can be retrieved, by its id if that has no blanks around it. -/
theorem retrieved_iff_trimmed (path : Option String) (now : Moment) {run : List Operation}
    (hload : ∀ op ∈ run, ∀ files now, op ≠ .load files now) (hids : ∀ op ∈ run, op.KeepsIds)
    (hfresh : ∀ past op, past ++ [op] <+: run →
      op.Fresh (Run.after apply (new path now) past)) :
    (∀ user, Run.Lasting apply (StoresUser user) (ChangesUser user) (new path now) run →
      user ∈ (Run.after apply (new path now) run).users) ∧
    (∀ user ∈ (Run.after apply (new path now) run).users,
      (Run.after apply (new path now) run).RetrievesUser user) ∧
    (∀ key, Run.Lasting apply (StoresKey key) (ChangesKey key) (new path now) run →
      key ∈ (Run.after apply (new path now) run).apiKeys) ∧
    ∀ key ∈ (Run.after apply (new path now) run).apiKeys,
      (Run.after apply (new path now) run).RetrievesKey key := by
  have hsound := sound_of_not_load (sound_new path now) hload hids hfresh
  refine ⟨fun user h => ?_, fun user hu => hsound.retrievesUser hu, fun key h => ?_,
    fun key hk => hsound.retrievesKey hk⟩
  · exact h.holds (fun _ _ => mem_users_of_storesUser) fun _ _ => mem_users_apply
  · exact h.holds (fun _ _ => mem_apiKeys_of_storesKey) fun _ _ => mem_apiKeys_apply

def ada (id : String) : User := { guest "Ada" with id }

def doorkeeper (id : String) : ApiKey := { ApiKey.fresh "tk_door" "" .epoch with id }

/-- A user and a key come with ids of their own, the key is in use, and another user is renamed. -/
def arrivals : List Operation :=
  [.upsertUser "usr_9" .epoch (ada "usr_1"), .upsertKey "key_9" .epoch (doorkeeper "key_1"),
    .beginRequest "tk_door", .upsertUser "usr_2" .epoch (guest "Grace"),
    .endRequest "tk_door" false, .updateUser "usr_2" fun u => { u with username := "Hopper" }]

theorem retrieved_arrivals :
    (∀ op ∈ arrivals, op.KeepsIds) ∧
      ada "usr_1" ∈ (Run.after apply (new none .epoch) arrivals).users ∧
      (Run.after apply (new none .epoch) arrivals).findUserByName? " ADA " = some (ada "usr_1") ∧
      (Run.after apply (new none .epoch) arrivals).findUser? "usr_1" = some (ada "usr_1") ∧
      (Run.after apply (new none .epoch) arrivals).findKeyById? "key_1" =
        some (doorkeeper "key_1") := by
  have hload : ∀ op ∈ arrivals, ∀ files now, op ≠ .load files now := by simp [arrivals]
  have hids : ∀ op ∈ arrivals, op.KeepsIds := by simp [arrivals, Operation.KeepsIds]
  obtain ⟨hlasting, husers, -, hkeys⟩ := retrieved_iff_trimmed none .epoch hload hids
    (Run.forall_event_iff.mp (by decide +kernel))
  have hstored : StoresUser (ada "usr_1") (new none .epoch)
      (.upsertUser "usr_9" .epoch (ada "usr_1")) := by
    rw [StoresUser]
    decide +kernel
  have hada := hlasting (ada "usr_1") ⟨[], _, _, rfl, hstored, ?_⟩
  · refine ⟨hids, hada, (husers _ hada).byName _ (by decide +kernel),
      (husers _ hada).byId.mpr (by decide +kernel), ?_⟩
    exact (hkeys (doorkeeper "key_1") (by decide +kernel)).byId.mpr (by decide +kernel)
  · rintro more next hp ⟨haddresses, -⟩
    have hnext := hp.subset (List.mem_append_right more (List.mem_singleton_self next))
    simp only [List.mem_cons, List.not_mem_nil, or_false] at hnext
    rcases hnext with rfl | rfl | rfl | rfl | rfl
    · exact haddresses
    · exact haddresses
    · exact absurd haddresses (by rw [Operation.AddressesUser]; decide)
    · exact haddresses
    · exact absurd haddresses (by rw [Operation.AddressesUser]; decide +kernel)

/-- A user and a key whose ids have blanks around them, and a user whose id is the same without. -/
def paddedArrivals : List Operation :=
  [.upsertUser "usr_9" .epoch (ada " usr_1 "), .upsertKey "key_9" .epoch (doorkeeper " key_1 "),
    .upsertUser "usr_9" .epoch { guest "Grace" with id := "usr_1" }]

/-- They are stored as they came, are not found by their ids, and a deletion by the id of the user
removes the other one. -/
theorem unretrieved_paddedArrivals :
    (new none .epoch).answer (.upsertUser "usr_9" .epoch (ada " usr_1 ")) =
        .ok (.user (ada " usr_1 ")) ∧
      (Run.after apply (new none .epoch) paddedArrivals).findUser? " usr_1 " =
        some { guest "Grace" with id := "usr_1" } ∧
      ((Run.after apply (new none .epoch) paddedArrivals).deleteUser " usr_1 ").2.users =
        [ada " usr_1 "] ∧
      (Run.after apply (new none .epoch) paddedArrivals).apiKeys = [doorkeeper " key_1 "] ∧
      (Run.after apply (new none .epoch) paddedArrivals).findKeyById? " key_1 " = none ∧
      ((Run.after apply (new none .epoch) paddedArrivals).deleteKey " key_1 ").1 =
        .error .keyNotFound := by
  decide +kernel

end Store
end Turnstile
