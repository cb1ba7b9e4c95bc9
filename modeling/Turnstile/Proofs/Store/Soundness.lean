import Turnstile.Proofs.Run
import Turnstile.Proofs.Store.Usage
import Turnstile.Proofs.Text.Blank
import Mathlib.Data.List.Nodup
import Mathlib.Data.List.Pairwise

/-! Sound records. Ids are there and distinct, no two users answer to one name and no two keys to
one credential, names and credentials satisfy their rules, and slots are reserved on stored keys
alone. A new store is sound, and every operation keeps a sound store sound, whether it succeeds or
fails. -/

namespace Turnstile

/-! ## Lists of records -/

/-- Records with ids that are not empty, of which no two share their id or clash otherwise. -/
structure Kept {α : Type} (id : α → String) (clash : α → α → Bool) (rule : α → Prop)
    (l : List α) : Prop where
  ids_ne : ∀ a ∈ l, id a ≠ ""
  ids : (l.map id).Nodup
  apart : l.Pairwise fun a b => clash a b = false
  rule : ∀ a ∈ l, rule a

namespace Kept

variable {α : Type} {id : α → String} {clash : α → α → Bool} {rule : α → Prop} {l : List α}
  {a b : α} {test : α → Bool}

theorem nil : Kept id clash rule [] := ⟨by simp, by simp, by simp, by simp⟩

theorem append (h : Kept id clash rule l) (hne : id a ≠ "") (hnew : ∀ b ∈ l, id b ≠ id a)
    (hapart : ∀ b ∈ l, clash b a = false) (ha : rule a) : Kept id clash rule (l ++ [a]) := by
  refine ⟨?_, ?_, ?_, ?_⟩
  · exact List.forall_mem_append.mpr ⟨h.ids_ne, List.forall_mem_singleton.mpr hne⟩
  · rw [List.map_append, List.nodup_append]
    refine ⟨h.ids, by simp, ?_⟩
    intro x hx y hy
    obtain ⟨b, hb, rfl⟩ := List.mem_map.mp hx
    rw [List.map_singleton, List.mem_singleton] at hy
    rw [hy]
    exact hnew b hb
  · rw [List.pairwise_append]
    refine ⟨h.apart, by simp, ?_⟩
    intro b hb c hc
    rw [List.mem_singleton.mp hc]
    exact hapart b hb
  · exact List.forall_mem_append.mpr ⟨h.rule, List.forall_mem_singleton.mpr ha⟩

theorem filter (h : Kept id clash rule l) (p : α → Bool) : Kept id clash rule (l.filter p) where
  ids_ne b hb := h.ids_ne b (List.mem_of_mem_filter hb)
  ids := h.ids.sublist (List.filter_sublist.map id)
  apart := h.apart.filter p
  rule b hb := h.rule b (List.mem_of_mem_filter hb)

/-- A record gives its place to one with its id that clashes with none of the others. -/
theorem replace (h : Kept id clash rule l)
    (hsymm : ∀ {a b}, clash a b = false → clash b a = false)
    (hfound : l.find? test = some b) (hid : id a = id b)
    (hapart : ∀ c ∈ l, id c ≠ id b → clash c a = false) (ha : rule a) :
    Kept id clash rule (Store.replaceFirst test a l) := by
  have hids : (Store.replaceFirst test a l).map id = l.map id :=
    Store.map_replaceFirst hfound hid
  obtain ⟨before, rest, rfl, hr⟩ := Store.replaceFirst_eq_append a hfound
  rw [hr] at hids ⊢
  have hothers : ∀ c ∈ before ++ rest, c ∈ before ++ b :: rest ∧ id c ≠ id b := by
    have hnodup := h.ids
    rw [List.map_append, List.map_cons, List.nodup_middle, ← List.map_append,
      List.nodup_cons] at hnodup
    intro c hc
    refine ⟨?_, ?_⟩
    · rw [List.mem_append] at hc ⊢
      exact hc.imp_right (List.mem_cons_of_mem b)
    · intro hcb
      exact hnodup.1 (hcb ▸ List.mem_map_of_mem hc)
  -- Each field is said of the record in the middle and of those around it.
  refine ⟨?_, ?_, ?_, ?_⟩
  · intro c hc
    rcases List.mem_cons.mp (List.perm_middle.mem_iff.mp hc) with rfl | hc
    · rw [hid]
      exact h.ids_ne b (by simp)
    · exact h.ids_ne c (hothers c hc).1
  · rw [hids]
    exact h.ids
  · have hpairs := h.apart
    rw [List.pairwise_middle hsymm, List.pairwise_cons] at hpairs ⊢
    exact ⟨fun c hc => hsymm (hapart c (hothers c hc).1 (hothers c hc).2), hpairs.2⟩
  · intro c hc
    rcases List.mem_cons.mp (List.perm_middle.mem_iff.mp hc) with rfl | hc
    · exact ha
    · exact h.rule c (hothers c hc).1

/-- Records of different ids do not clash. -/
theorem clash_eq_false (h : Kept id clash rule l)
    (hsymm : ∀ {a b}, clash a b = false → clash b a = false) (ha : a ∈ l) (hb : b ∈ l)
    (hid : id a ≠ id b) : clash a b = false := by
  have : Std.Symm fun a b => clash a b = false := ⟨fun _ _ => hsymm⟩
  exact h.apart.forall ha hb (fun hab => hid (congrArg id hab))

end Kept

/-! ## Sound stores -/

/-- What a stored name is. -/
structure IsUsername (name : String) : Prop where
  trimmed : Text.trim name = name
  nonempty : 1 ≤ name.length
  bounded : name.length ≤ 64
  plain : ∀ c ∈ name.toList, Text.isControl c = false

/-- What a stored credential is. -/
structure IsCredential (credential : String) : Prop where
  nonempty : 1 ≤ credential.length
  bounded : credential.length ≤ 256
  plain : ∀ c ∈ credential.toList, Text.isBlank c = false ∧ Text.isControl c = false

/-- No two users have one id or answer to one name. -/
abbrev UsersKept (users : List User) : Prop :=
  Kept User.id (fun u v => sameUsername u.username v.username) (fun u => IsUsername u.username)
    users

/-- No two keys have one id or one credential. -/
abbrev KeysKept (apiKeys : List ApiKey) : Prop :=
  Kept ApiKey.id (fun a b => a.credential == b.credential) (fun a => IsCredential a.credential)
    apiKeys

structure RecordSet.Sound (r : RecordSet) : Prop where
  users : UsersKept r.users
  apiKeys : KeysKept r.apiKeys
  version : 1 ≤ r.version

/-- The records are sound, and every entry in flight counts requests on a stored key. -/
structure Store.Sound (s : Store) : Prop where
  records : s.records.Sound
  inFlight : ∀ entry ∈ s.inFlight, 1 ≤ entry.2 ∧ ∃ key ∈ s.apiKeys, key.id = entry.1

instance {α : Type} {id : α → String} {clash : α → α → Bool} {rule : α → Prop} [DecidablePred rule]
    (l : List α) : Decidable (Kept id clash rule l) :=
  decidable_of_iff ((∀ a ∈ l, id a ≠ "") ∧ (l.map id).Nodup ∧
      l.Pairwise (fun a b => clash a b = false) ∧ ∀ a ∈ l, rule a)
    ⟨fun ⟨hne, hids, hapart, hrule⟩ => ⟨hne, hids, hapart, hrule⟩,
      fun h => ⟨h.ids_ne, h.ids, h.apart, h.rule⟩⟩

instance (name : String) : Decidable (IsUsername name) :=
  decidable_of_iff (Text.trim name = name ∧ 1 ≤ name.length ∧ name.length ≤ 64 ∧
      name.toList.all fun c => Text.isControl c = false)
    ⟨fun ⟨htrimmed, hsome, hbound, hplain⟩ => ⟨htrimmed, hsome, hbound, by simpa using hplain⟩,
      fun h => ⟨h.trimmed, h.nonempty, h.bounded, by simpa using h.plain⟩⟩

instance (credential : String) : Decidable (IsCredential credential) :=
  decidable_of_iff (1 ≤ credential.length ∧ credential.length ≤ 256 ∧
      credential.toList.all fun c => Text.isBlank c = false ∧ Text.isControl c = false)
    ⟨fun ⟨hsome, hbound, hplain⟩ => ⟨hsome, hbound, by simpa using hplain⟩,
      fun h => ⟨h.nonempty, h.bounded, by simpa using h.plain⟩⟩

instance (r : RecordSet) : Decidable r.Sound :=
  decidable_of_iff (UsersKept r.users ∧ KeysKept r.apiKeys ∧ 1 ≤ r.version)
    ⟨fun ⟨husers, hkeys, hversion⟩ => ⟨husers, hkeys, hversion⟩,
      fun h => ⟨h.users, h.apiKeys, h.version⟩⟩

instance (s : Store) : Decidable s.Sound :=
  decidable_of_iff (s.records.Sound ∧
      ∀ entry ∈ s.inFlight, 1 ≤ entry.2 ∧ ∃ key ∈ s.apiKeys, key.id = entry.1)
    ⟨fun ⟨hrecords, hinFlight⟩ => ⟨hrecords, hinFlight⟩, fun h => ⟨h.records, h.inFlight⟩⟩

/-! ## Checks -/

theorem sameUsername_comm (a b : String) : sameUsername a b = sameUsername b a := by
  rw [sameUsername, sameUsername, Text.equalIgnoringAsciiCase, Text.equalIgnoringAsciiCase,
    Bool.beq_comm, Bool.beq_comm (a := Text.toLower a)]

theorem isUsername_of_check {name : String} (h : checkUsername (Text.trim name) = .ok ()) :
    IsUsername (Text.trim name) := by
  unfold checkUsername at h
  rw [Text.trim_trim] at h
  dsimp only at h
  split at h
  · cases h
  · rename_i hsome
    split at h
    · cases h
    · rename_i hlong
      split at h
      · cases h
      · rename_i hplain
        rw [List.isEmpty_iff, ← List.length_eq_zero_iff, String.length_toList] at hsome
        rw [String.length_toList, usernameBound] at hlong
        refine ⟨Text.trim_trim name, by omega, by omega, ?_⟩
        intro c hc
        simpa using List.find?_eq_none.mp hplain c hc

theorem isCredential_of_check {credential : String} (h : checkCredential credential = .ok ()) :
    IsCredential credential := by
  unfold checkCredential at h
  dsimp only at h
  split at h
  · cases h
  · rename_i hsome
    split at h
    · cases h
    · rename_i hlong
      split at h
      · cases h
      · rename_i hplain
        rw [List.isEmpty_iff, ← List.length_eq_zero_iff, String.length_toList] at hsome
        rw [String.length_toList, credentialBound] at hlong
        refine ⟨by omega, by omega, ?_⟩
        intro c hc
        simpa using List.find?_eq_none.mp hplain c hc

theorem IsUsername.check {name : String} (h : IsUsername name) : checkUsername name = .ok () := by
  have hsome : name.toList.isEmpty = false := by
    rw [List.isEmpty_eq_false_iff, ← List.length_pos_iff, String.length_toList]
    exact h.nonempty
  have hplain : name.toList.find? Text.isControl = none := by
    rw [List.find?_eq_none]
    exact fun c hc => Bool.eq_false_iff.mp (h.plain c hc)
  have hbound : ¬ usernameBound < name.toList.length := by
    rw [String.length_toList]
    exact Nat.not_lt.mpr h.bounded
  simp only [checkUsername, h.trimmed, hsome, hbound, hplain, Bool.false_eq_true, if_false]

theorem IsCredential.trimmed {credential : String} (h : IsCredential credential) :
    Text.trim credential = credential :=
  Text.trim_of_plain fun c hc => (h.plain c hc).1

theorem IsCredential.check {credential : String} (h : IsCredential credential) :
    checkCredential credential = .ok () := by
  have hsome : credential.toList.isEmpty = false := by
    rw [List.isEmpty_eq_false_iff, ← List.length_pos_iff, String.length_toList]
    exact h.nonempty
  have hplain : credential.toList.find? (fun c => Text.isBlank c || Text.isControl c) = none := by
    rw [List.find?_eq_none]
    intro c hc
    obtain ⟨hblank, hcontrol⟩ := h.plain c hc
    simp [hblank, hcontrol]
  have hbound : ¬ credentialBound < credential.toList.length := by
    rw [String.length_toList]
    exact Nat.not_lt.mpr h.bounded
  simp only [checkCredential, hsome, hbound, hplain, Bool.false_eq_true, if_false]

theorem beq_false_symm {a b : ApiKey} (h : (a.credential == b.credential) = false) :
    (b.credential == a.credential) = false := by
  rw [Bool.beq_comm]
  exact h

theorem sameUsername_false_symm {u v : User} (h : sameUsername u.username v.username = false) :
    sameUsername v.username u.username = false := by
  rw [sameUsername_comm]
  exact h

/-- None of the items passes both tests. -/
theorem forall_of_any_and {α : Type} {l : List α} {p q : α → Bool}
    (h : ¬ (l.any fun b => p b && q b) = true) : ∀ a ∈ l, p a = true → q a = false := by
  intro a ha hp
  rw [Bool.not_eq_true, List.any_eq_false] at h
  simpa [hp] using h a ha

theorem find?_of_any {α : Type} {l : List α} {test : α → Bool} (h : l.any test = true) :
    ∃ a, l.find? test = some a :=
  Option.isSome_iff_exists.mp (List.find?_isSome.mpr (List.any_eq_true.mp h))

namespace Store

variable {s t : Store}

namespace Sound

theorem congr (h : s.Sound) (hrecords : t.records = s.records)
    (hinFlight : t.inFlight = s.inFlight) :
    t.Sound := by
  refine ⟨hrecords ▸ h.records, ?_⟩
  rw [hinFlight, apiKeys, hrecords]
  exact h.inFlight

theorem withUsers (h : s.Sound) {users : List User} (husers : UsersKept users) :
    (s.withUsers users).Sound :=
  ⟨⟨husers, h.records.apiKeys, h.records.version⟩, h.inFlight⟩

/-- Other keys, among them one for each that had an id before. -/
theorem withApiKeys (h : s.Sound) {keys : List ApiKey} (hkeys : KeysKept keys)
    (hids : s.apiKeys.map ApiKey.id ⊆ keys.map ApiKey.id) : (s.withApiKeys keys).Sound := by
  refine ⟨⟨h.records.users, hkeys, h.records.version⟩, ?_⟩
  intro entry hentry
  obtain ⟨hpos, key, hkey, hid⟩ := h.inFlight entry hentry
  exact ⟨hpos, List.mem_map.mp (hids (List.mem_map.mpr ⟨key, hkey, hid⟩))⟩

/-- A changed key with the id and the credential of the one it takes the place of. -/
theorem replaceKey (h : s.Sound) {test : ApiKey → Bool} {found key : ApiKey}
    (hfound : s.apiKeys.find? test = some found) (hid : key.id = found.id)
    (hcredential : key.credential = found.credential) :
    (s.withApiKeys (replaceFirst test key s.apiKeys)).Sound := by
  have hmem := List.mem_of_find?_eq_some hfound
  refine h.withApiKeys (h.records.apiKeys.replace beq_false_symm hfound hid ?_ ?_) ?_
  · intro other hother hne
    rw [hcredential]
    exact h.records.apiKeys.clash_eq_false beq_false_symm hother hmem hne
  · rw [hcredential]
    exact h.records.apiKeys.rule found hmem
  · rw [map_replaceFirst hfound hid]
    exact List.Subset.refl _

end Sound

/-! ## The start -/

theorem sound_empty (now : Moment) : (RecordSet.empty now).Sound :=
  ⟨.nil, .nil, UInt32.le_refl 1⟩

theorem sound_new (path : Option String) (now : Moment) : (new path now).Sound :=
  ⟨sound_empty now, by simp [new]⟩

/-- Records that are sound in the file are sound in the store, if nothing is in flight. -/
theorem sound_load (h : s.Sound) (hidle : s.inFlight = []) {files : FileTree} {now : Moment}
    (hfile : ∀ path bytes records, s.path = some path → files.contents path = .ok bytes →
      RecordSet.read? now bytes = some records → records.Sound) :
    (s.load files now).2.Sound := by
  have hloaded {records : RecordSet} (hr : records.Sound) : { s with records }.Sound :=
    ⟨hr, by simp [hidle]⟩
  unfold load
  split
  · exact h
  · rename_i path hpath
    split
    · exact hloaded (sound_empty now)
    · exact h
    · rename_i bytes hbytes
      split
      · rename_i records hread
        exact hloaded (hfile path bytes records hpath hbytes hread)
      · exact h

/-! ## Users -/

theorem sound_upsertUser (h : s.Sound) {freshId : String} {now : Moment} {given : User}
    (hfresh : given.id = "" → freshId ≠ "" ∧ ∀ u ∈ s.users, u.id ≠ freshId) :
    (s.upsertUser freshId now given).2.Sound := by
  unfold upsertUser
  dsimp only
  split
  · exact h
  · rename_i hcheck
    have hrule := isUsername_of_check hcheck
    split
    · exact h
    · rename_i hfree
      have hapart : ∀ u ∈ s.users, given.id = "" ∨ u.id ≠ given.id →
          sameUsername u.username (Text.trim given.username) = false := by
        intro u hu hother
        refine forall_of_any_and hfree u hu ?_
        simpa using hother
      split
      · rename_i hnew
        have hid : given.id = "" := by simpa [User.isNew] using hnew
        obtain ⟨hne, hunused⟩ := hfresh hid
        exact h.withUsers (h.records.users.append hne hunused
          (fun u hu => hapart u hu (.inl hid)) hrule)
      · rename_i hold
        have hid : given.id ≠ "" := by simpa [User.isNew] using hold
        split
        · rename_i hstored
          obtain ⟨found, hfound⟩ := find?_of_any hstored
          have hfid : found.id = given.id := Lookup.name_of_find? hfound
          refine h.withUsers (h.records.users.replace sameUsername_false_symm hfound hfid.symm ?_
            hrule)
          intro u hu hne
          exact hapart u hu (.inr (hfid ▸ hne))
        · rename_i hunknown
          have hunused : ∀ u ∈ s.users, u.id ≠ given.id := by simpa using hunknown
          exact h.withUsers (h.records.users.append hid hunused
            (fun u hu => hapart u hu (.inr (hunused u hu))) hrule)

theorem sound_updateUser (h : s.Sound) {id : String} {patch : User → User}
    (hpatch : ∀ u, (patch u).id = u.id) : (s.updateUser id patch).2.Sound := by
  unfold updateUser
  dsimp only
  split
  · exact h
  · rename_i found hfound
    have hfid : found.id = Text.trim id := Lookup.name_of_find? hfound
    split
    · exact h
    · rename_i hcheck
      split
      · exact h
      · rename_i hfree
        refine h.withUsers (h.records.users.replace sameUsername_false_symm hfound (hpatch found)
          ?_ (isUsername_of_check hcheck))
        intro u hu hne
        refine forall_of_any_and hfree u hu ?_
        simpa [hfid] using hne

theorem sound_deleteUser (h : s.Sound) (id : String) : (s.deleteUser id).2.Sound := by
  unfold deleteUser
  dsimp only
  split
  · exact h
  · split
    · exact h.withUsers (h.records.users.filter _)
    · exact h

/-! ## Keys -/

theorem sound_upsertKey (h : s.Sound) {freshId : String} {now : Moment} {key : ApiKey}
    (hfresh : key.id = "" → freshId ≠ "" ∧ ∀ a ∈ s.apiKeys, a.id ≠ freshId) :
    (s.upsertKey freshId now key).2.Sound := by
  have hgrown (a : ApiKey) : s.apiKeys.map ApiKey.id ⊆ (s.apiKeys ++ [a]).map ApiKey.id := by
    rw [List.map_append]
    exact List.subset_append_left _ _
  unfold upsertKey
  split
  · exact h
  · rename_i hcheck
    have hrule := isCredential_of_check hcheck
    split
    · exact h
    · rename_i hfree
      have hapart : ∀ a ∈ s.apiKeys, key.id = "" ∨ a.id ≠ key.id →
          (a.credential == key.credential) = false := by
        intro a ha hother
        refine forall_of_any_and hfree a ha ?_
        simpa using hother
      split
      · rename_i hnew
        have hid : key.id = "" := by simpa [ApiKey.isNew] using hnew
        obtain ⟨hne, hunused⟩ := hfresh hid
        exact h.withApiKeys (h.records.apiKeys.append hne hunused
          (fun a ha => hapart a ha (.inl hid)) hrule) (hgrown _)
      · rename_i hold
        have hid : key.id ≠ "" := by simpa [ApiKey.isNew] using hold
        split
        · rename_i hstored
          obtain ⟨found, hfound⟩ := find?_of_any hstored
          have hfid : found.id = key.id := Lookup.name_of_find? hfound
          refine h.withApiKeys (h.records.apiKeys.replace beq_false_symm hfound hfid.symm ?_
            hrule) ?_
          · intro a ha hne
            exact hapart a ha (.inr (hfid ▸ hne))
          · rw [map_replaceFirst hfound hfid.symm]
            exact List.Subset.refl _
        · rename_i hunknown
          have hunused : ∀ a ∈ s.apiKeys, a.id ≠ key.id := by simpa using hunknown
          exact h.withApiKeys (h.records.apiKeys.append hid hunused
            (fun a ha => hapart a ha (.inr (hunused a ha))) hrule) (hgrown _)

theorem sound_updateKey (h : s.Sound) {id : String} {patch : ApiKey → ApiKey}
    (hpatch : ∀ a, (patch a).id = a.id) : (s.updateKey id patch).2.Sound := by
  unfold updateKey
  dsimp only
  split
  · exact h
  · rename_i found hfound
    have hfid : found.id = Text.trim id := Lookup.name_of_find? hfound
    split
    · exact h
    · rename_i hcheck
      split
      · exact h
      · rename_i hfree
        refine h.withApiKeys (h.records.apiKeys.replace beq_false_symm hfound (hpatch found)
          ?_ (isCredential_of_check hcheck)) ?_
        · intro a ha hne
          refine forall_of_any_and hfree a ha ?_
          simpa [hfid] using hne
        · rw [map_replaceFirst hfound (hpatch found)]
          exact List.Subset.refl _

/-- The entry of a deleted key goes with it. -/
theorem sound_deleteKey (h : s.Sound) (id : String) : (s.deleteKey id).2.Sound := by
  rw [deleteKey_eq]
  cases s.findKeyById? id with
  | none => exact h
  | some deleted =>
    refine ⟨⟨h.records.users, h.records.apiKeys.filter _, h.records.version⟩, ?_⟩
    intro entry hentry
    obtain ⟨hold, hne⟩ := InFlight.mem_remove hentry
    obtain ⟨hpos, key, hkey, hid⟩ := h.inFlight entry hold
    refine ⟨hpos, key, List.mem_filter.mpr ⟨hkey, ?_⟩, hid⟩
    rw [hid]
    exact bne_iff_ne.mpr hne

theorem sound_resetUsage (h : s.Sound) (id : String) : (s.resetUsage id).2.Sound := by
  unfold resetUsage
  split
  · exact h
  · rename_i found hfound
    exact h.replaceKey hfound rfl rfl

/-! ## Requests -/

theorem sound_beginRequest (h : s.Sound) (credential : String) :
    (s.beginRequest credential).2.Sound := by
  rcases s.beginRequest_cases credential with ⟨e, he⟩ | ⟨key, hkey, -, -, ⟨-, he⟩ | ⟨-, hroom, he⟩⟩
  · rw [he]
    exact h
  · rw [he]
    exact h
  · rw [he]
    refine ⟨h.records, ?_⟩
    intro entry hentry
    rcases InFlight.mem_reserve hroom hentry with hold | ⟨hid, hpos⟩
    · exact h.inFlight entry hold
    · exact ⟨hpos, key, mem_of_findKey? hkey, hid.symm⟩

theorem sound_completeOn (h : s.Sound) {test : ApiKey → Bool} {found : ApiKey}
    (hfound : s.apiKeys.find? test = some found) (counted : Bool) :
    (s.completeOn test found counted).2.Sound := by
  have hreplaced : (s.withApiKeys (replaceFirst test
      (if counted then found.recordUse else found) s.apiKeys)).Sound :=
    h.replaceKey hfound (by split <;> rfl) (by split <;> rfl)
  refine ⟨hreplaced.records, ?_⟩
  intro entry hentry
  have hstored : entry ∈ s.inFlight ∨ entry.1 = found.id ∧ 1 ≤ entry.2 := by
    simp only [completeOn] at hentry
    split at hentry
    · exact InFlight.mem_giveBack hentry
    · exact .inl hentry
  rcases hstored with hold | ⟨hid, hpos⟩
  · exact hreplaced.inFlight entry hold
  · obtain ⟨key, hkey, hkid⟩ : ∃ key ∈ replaceFirst test
        (if counted then found.recordUse else found) s.apiKeys, key.id = found.id := by
      refine List.mem_map.mp ?_
      rw [map_replaceFirst hfound (by split <;> rfl)]
      exact List.mem_map_of_mem (List.mem_of_find?_eq_some hfound)
    exact ⟨hpos, key, hkey, hkid.trans hid.symm⟩

theorem sound_endRequest (h : s.Sound) (credential : String) (counted : Bool) :
    (s.endRequest credential counted).2.Sound := by
  rcases s.endRequest_cases credential counted with ⟨e, he⟩ | ⟨test, found, hfound, he⟩
  · rw [he]
    exact h
  · rw [he]
    exact sound_completeOn h hfound counted

theorem sound_endRequestById (h : s.Sound) (id : String) (counted : Bool) :
    (s.endRequestById id counted).2.Sound := by
  rcases s.endRequestById_cases id counted with ⟨-, he⟩ | ⟨found, hfound, he⟩
  · rw [he]
    exact h
  · rw [he]
    exact sound_completeOn h hfound counted

theorem sound_releaseSlots (h : s.Sound) (id : String) : (s.releaseSlots id).2.Sound := by
  rcases s.releaseSlots_cases id with ⟨-, he⟩ | ⟨-, he⟩
  · rw [he]
    exact h
  · rw [he]
    exact ⟨h.records, fun entry hentry => h.inFlight entry (InFlight.mem_remove hentry).1⟩

theorem records_setPath (path : String) : (s.setPath path).records = s.records := by
  simp only [setPath]

theorem records_hashPassword (hasher : Hasher) (salt : List UInt8) (password : String) :
    (s.hashPassword hasher salt password).2.records = s.records := by
  simp only [hashPassword]

theorem records_authenticate (hasher : Hasher) (salt : List UInt8) (username password : String) :
    (s.authenticate hasher salt username password).2.records = s.records := by
  unfold authenticate withDecoy
  split
  · rfl
  · cases s.decoy <;> rfl

end Store

/-! ## Runs -/

/-- A patch keeps the id of what it changes, as edits do. -/
def Operation.KeepsIds : Operation → Prop
  | .updateUser _ patch => ∀ u, (patch u).id = u.id
  | .updateKey _ patch => ∀ a, (patch a).id = a.id
  | _ => True

/-- A new id is not empty and not in use. -/
def Operation.Fresh (s : Store) : Operation → Prop
  | .upsertUser freshId _ user => user.id = "" → freshId ≠ "" ∧ ∀ u ∈ s.users, u.id ≠ freshId
  | .upsertKey freshId _ key => key.id = "" → freshId ≠ "" ∧ ∀ a ∈ s.apiKeys, a.id ≠ freshId
  | _ => True

/-- A load finds sound records, and nothing is in flight. -/
def Operation.LoadsSound (s : Store) : Operation → Prop
  | .load files now => s.inFlight = [] ∧ ∀ path bytes records, s.path = some path →
    files.contents path = .ok bytes → RecordSet.read? now bytes = some records → records.Sound
  | _ => True

instance (s : Store) (op : Operation) : Decidable (op.Fresh s) :=
  match op with
  | .upsertUser .. | .upsertKey .. => inferInstanceAs (Decidable (_ → _))
  | .load .. | .save .. | .setPath .. | .updateUser .. | .deleteUser .. | .hashPassword ..
  | .authenticate .. | .updateKey .. | .deleteKey .. | .resetUsage .. | .beginRequest ..
  | .endRequest .. | .endRequestById .. | .releaseSlots .. => inferInstanceAs (Decidable True)

namespace Store

variable {s : Store} {run : List Operation}

theorem Sound.apply (h : s.Sound) {op : Operation} (hids : op.KeepsIds) (hfresh : op.Fresh s)
    (hload : op.LoadsSound s) : (s.apply op).Sound := by
  cases op <;> simp only [Operation.KeepsIds, Operation.Fresh, Operation.LoadsSound, Store.apply]
    at hids hfresh hload ⊢
  case load files now => exact sound_load h hload.1 hload.2
  case save files now tag => exact h
  case setPath path => exact h.congr (records_setPath path) (s.sameKeys_setPath path).inFlight
  case upsertUser freshId now user => exact sound_upsertUser h hfresh
  case updateUser id patch => exact sound_updateUser h hids
  case deleteUser id => exact sound_deleteUser h id
  case hashPassword hasher salt password =>
    exact h.congr (records_hashPassword hasher salt password)
      (s.sameKeys_hashPassword hasher salt password).inFlight
  case authenticate hasher salt username password =>
    exact h.congr (records_authenticate hasher salt username password)
      (s.sameKeys_authenticate hasher salt username password).inFlight
  case upsertKey freshId now key => exact sound_upsertKey h hfresh
  case updateKey id patch => exact sound_updateKey h hids
  case deleteKey id => exact sound_deleteKey h id
  case resetUsage id => exact sound_resetUsage h id
  case beginRequest credential => exact sound_beginRequest h credential
  case endRequest credential counted => exact sound_endRequest h credential counted
  case endRequestById id counted => exact sound_endRequestById h id counted
  case releaseSlots id => exact sound_releaseSlots h id

/-- Every state of a run that starts sound is sound, whichever of its operations fail. -/
theorem sound_after (hs : s.Sound) (hids : ∀ op ∈ run, op.KeepsIds)
    (hfresh : ∀ past op, past ++ [op] <+: run → op.Fresh (Run.after apply s past))
    (hload : ∀ past op, past ++ [op] <+: run → op.LoadsSound (Run.after apply s past)) :
    ∀ past, past <+: run → (Run.after apply s past).Sound := by
  refine Run.prefix_induction hs ?_
  intro past op hp ih
  have hop : op ∈ run := hp.subset (List.mem_append_right past (List.mem_singleton_self op))
  rw [Run.after_concat]
  exact ih.apply (hids op hop) (hfresh past op hp) (hload past op hp)

/-- A user without a password. -/
def guest (name : String) : User := ⟨"", name, "", .user, false, .epoch⟩

/-- The second name is that of the first user, and so is the third once it is changed. The key is in
use when its credential changes. -/
def signUps : List Operation :=
  [.upsertUser "usr_1" .epoch (guest " Ada "),
    .upsertUser "usr_2" .epoch (guest "ADA"),
    .upsertUser "usr_2" .epoch (guest "Grace"),
    .updateUser " usr_2 " fun u => { u with username := "ada " },
    .upsertKey "key_1" .epoch { ApiKey.fresh "tk_door" "door" .epoch with concurrencyLimit := 1 },
    .beginRequest "tk_door",
    .updateKey "key_1" (KeyEdit.applyAll [.credential "tk_gate", .userId "usr_1"]),
    .upsertKey "key_2" .epoch (ApiKey.fresh "tk gate" "" .epoch),
    .deleteUser "usr_1"]

/-- One user, one key and its open request are left. -/
theorem sound_after_signUps :
    (new none .epoch).Sound ∧ (∀ op ∈ signUps, op.KeepsIds) ∧
      (Run.after apply (new none .epoch) signUps).Sound ∧
      (Run.after apply (new none .epoch) signUps).counts = (1, 1) ∧
      (Run.after apply (new none .epoch) signUps).inFlight = [("key_1", 1)] := by
  have hids : ∀ op ∈ signUps, op.KeepsIds := by
    simp only [signUps, List.forall_mem_cons, Operation.KeepsIds, true_and]
    exact ⟨fun _ => trivial, KeyEdit.id_applyAll _, by simp⟩
  have hload : ∀ past op, past ++ [op] <+: signUps →
      op.LoadsSound (Run.after apply (new none .epoch) past) := by
    intro past op hp
    have hop : op ∈ signUps := hp.subset (List.mem_append_right past (List.mem_singleton_self op))
    simp only [signUps, List.mem_cons, List.not_mem_nil, or_false] at hop
    rcases hop with rfl | rfl | rfl | rfl | rfl | rfl | rfl | rfl | rfl <;> trivial
  refine ⟨sound_new none .epoch, hids, ?_, by decide +kernel⟩
  exact sound_after (sound_new none .epoch) hids (Run.forall_event_iff.mp (by decide +kernel)) hload
    signUps List.prefix_rfl

end Store

end Turnstile
