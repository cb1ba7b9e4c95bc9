import Turnstile.Proofs.Run
import Turnstile.Proofs.Store.Lane

/-! Keys do not disturb each other. Take a run of operations each of which is addressed to some key,
by its id or by its credential. What is answered to the operations on one key, and the record and
the slots that the key has in the end, are what they would be had the operations on the other keys
not taken place. This is so exactly if no key is reached through the id or the credential of another
one: some operations look the id up without the blanks around it, some as it stands, and a file may
hold ids that differ in nothing else. -/

namespace Turnstile.Store

variable {s t u : Store} {op : Operation} {a b key : ApiKey} {j k id credential : String}
  {run : List Operation}

/-! ## What is left of the keys -/

/-- Some keys may be gone; the others have their names and their order. -/
def Descends (s t : Store) : Prop :=
  (t.apiKeys.map ApiKey.names).Sublist (s.apiKeys.map ApiKey.names)

theorem Descends.ids (h : s.Descends t) (hids : (s.apiKeys.map ApiKey.id).Nodup) :
    (t.apiKeys.map ApiKey.id).Nodup := by
  have hsub := h.map Prod.fst
  rw [List.map_map, List.map_map] at hsub
  exact hids.sublist hsub

theorem Descends.distinct (h : s.Descends t) (hdistinct : s.DistinctCredentials) :
    t.DistinctCredentials := by
  have hsub := h.map Prod.snd
  rw [List.map_map, List.map_map] at hsub
  exact List.Nodup.sublist hsub hdistinct

/-- A key that is left has the names of one that was there. -/
theorem Descends.exists_names (h : s.Descends t) (hkey : key ∈ t.apiKeys) :
    ∃ a ∈ s.apiKeys, a.names = key.names :=
  List.mem_map.mp (h.subset (List.mem_map_of_mem hkey))

theorem Descends.keyWithId?_eq_none (h : s.Descends t) (hfree : ∀ a ∈ s.apiKeys, a.id ≠ id) :
    t.keyWithId? id = none := by
  refine List.find?_eq_none.mpr fun key hkey hid => ?_
  obtain ⟨a, ha, hnames⟩ := h.exists_names hkey
  exact hfree a ha ((congrArg Prod.fst hnames).trans (beq_iff_eq.mp hid))

theorem Descends.keyWithCredential?_eq_none (h : s.Descends t)
    (hfree : ∀ a ∈ s.apiKeys, a.credential ≠ credential) :
    t.keyWithCredential? credential = none := by
  refine keyWithCredential?_eq_none_iff.mpr fun key hkey hcredential => ?_
  obtain ⟨a, ha, hnames⟩ := h.exists_names hkey
  exact hfree a ha ((congrArg Prod.snd hnames).trans hcredential)

theorem keyWithId?_eq_some_iff (hids : (s.apiKeys.map ApiKey.id).Nodup) :
    s.keyWithId? id = some key ↔ key ∈ s.apiKeys ∧ key.id = id := by
  constructor
  · intro h
    exact ⟨List.mem_of_find?_eq_some h, Lookup.name_of_find? h⟩
  · rintro ⟨hmem, rfl⟩
    exact keyWithId?_of_mem hids hmem

/-- The credential of a key and its id lead to the same place for as long as the key is there. -/
theorem Descends.keyWithCredential?_eq (h : s.Descends t) (hids : (s.apiKeys.map ApiKey.id).Nodup)
    (hdistinct : s.DistinctCredentials) (ha : a ∈ s.apiKeys) :
    t.keyWithCredential? a.credential = t.keyWithId? a.id := by
  ext key
  rw [keyWithCredential?_eq_some_iff (h.distinct hdistinct), keyWithId?_eq_some_iff (h.ids hids)]
  refine and_congr_right fun hkey => ?_
  obtain ⟨b, hb, hnames⟩ := h.exists_names hkey
  obtain ⟨hid, hcredential⟩ := Prod.mk.inj hnames
  rw [← hid, ← hcredential]
  constructor
  · intro hsame
    rw [List.inj_on_of_nodup_map hdistinct hb ha hsame]
  · intro hsame
    rw [List.inj_on_of_nodup_map hids hb ha hsame]

/-- The keys that are left are known from their lanes. -/
theorem Descends.apiKeys_eq (h : s.Descends t) (hids : (s.apiKeys.map ApiKey.id).Nodup) :
    t.apiKeys = s.apiKeys.filterMap fun a => t.keyWithId? a.id := by
  unfold Descends at h
  simp only [keyWithId?]
  generalize t.apiKeys = left at h ⊢
  generalize s.apiKeys = all at h hids ⊢
  induction all generalizing left with
  | nil => exact List.map_eq_nil_iff.mp (List.sublist_nil.mp h)
  | cons a rest ih =>
    obtain ⟨hnew, hrest⟩ := List.nodup_cons.mp hids
    have hgone {part : List ApiKey}
        (hpart : (part.map ApiKey.names).Sublist (rest.map ApiKey.names)) :
        ∀ b ∈ part, b.id ≠ a.id := by
      intro b hb hid
      obtain ⟨c, hc, hnames⟩ := List.mem_map.mp (hpart.subset (List.mem_map_of_mem hb))
      exact hnew (List.mem_map.mpr ⟨c, hc, (congrArg Prod.fst hnames).trans hid⟩)
    rcases List.sublist_cons_iff.mp h with hskip | ⟨names, hleft, hsub⟩
    · have hnone : left.find? (·.id == a.id) = none :=
        List.find?_eq_none.mpr fun b hb hid => hgone hskip b hb (beq_iff_eq.mp hid)
      rw [List.filterMap_cons, hnone]
      exact ih left hskip hrest
    · obtain ⟨b, tail, rfl, hnames, rfl⟩ := List.map_eq_cons_iff.mp hleft
      have hid : b.id = a.id := congrArg Prod.fst hnames
      have hfirst : (b :: tail).find? (·.id == a.id) = some b :=
        List.find?_cons_of_pos (by simpa using hid)
      have hothers : ∀ c ∈ rest, (b :: tail).find? (·.id == c.id) = tail.find? (·.id == c.id) := by
        intro c hc
        refine List.find?_cons_of_neg ?_
        have hne : a.id ≠ c.id := fun hsame => hnew (hsame ▸ List.mem_map_of_mem hc)
        simpa [hid] using hne
      rw [List.filterMap_cons, hfirst, List.filterMap_congr hothers]
      exact congrArg _ (ih tail hsub hrest)

/-! ## Addresses -/

/-- The id of the key that has the given id, as it stands or with blanks around it. -/
def idNamed? (s : Store) (id : String) : Option String :=
  ((s.keyWithId? id).or (s.keyWithId? (Text.trim id))).map ApiKey.id

def idCalled? (s : Store) (credential : String) : Option String :=
  ((s.keyWithCredential? credential).or (s.keyWithCredential? (Text.trim credential))).map ApiKey.id

/-- The id of the key to which an operation is addressed. -/
def addressee? (s : Store) : Operation → Option String
  | .beginRequest credential | .endRequest credential _ => s.idCalled? credential
  | .endRequestById id _ | .updateKey id _ | .deleteKey id | .resetUsage id | .releaseSlots id =>
    s.idNamed? id
  | _ => none

theorem onKeys_of_addressee? (h : s.addressee? op = some k) : op.onKeys = true := by
  cases op
  case load | save | setPath | upsertUser | updateUser | deleteUser | hashPassword | authenticate |
      upsertKey => cases h
  all_goals rfl

/-- The operation is addressed to a key of the store and leaves the keys their names. -/
structure Concerns (s : Store) (op : Operation) : Prop where
  addressed : ∃ k, s.addressee? op = some k
  keepsNames : ∀ a, a.names ∈ s.apiKeys.map ApiKey.names → op.KeepsNames a

/-- No key is reached through the id or the credential of another one without the blanks around
it. Nothing is looked up by an empty credential. -/
def Apart (s : Store) : Prop :=
  ∀ a ∈ s.apiKeys, ∀ b ∈ s.apiKeys, a ≠ b →
    Text.trim a.id ≠ b.id ∧ (b.credential ≠ "" → Text.trim a.credential ≠ b.credential)

instance (s : Store) : Decidable s.Apart :=
  inferInstanceAs (Decidable (∀ a ∈ s.apiKeys, ∀ b ∈ s.apiKeys, a ≠ b →
    Text.trim a.id ≠ b.id ∧ (b.credential ≠ "" → Text.trim a.credential ≠ b.credential)))

/-! ## What an operation reaches -/

/-- The look-up finds the key with that id for as long as it is there, or it never finds a key. -/
def Reaches (s : Store) (find : Store → Option ApiKey) (k : String) : Prop :=
  (∀ t, s.Descends t → find t = t.keyWithId? k) ∨ ∀ t, s.Descends t → find t = none

section Reaches

variable (hids : (s.apiKeys.map ApiKey.id).Nodup) (hdistinct : s.DistinctCredentials)
  (hapart : s.Apart)

include hids

theorem reaches_id (h : s.idNamed? id = some k) : s.Reaches (·.keyWithId? id) k := by
  unfold idNamed? at h
  cases hfound : s.keyWithId? id with
  | some a =>
    rw [hfound, Option.some_or, Option.map_some, Option.some.injEq] at h
    obtain ⟨-, rfl⟩ := (keyWithId?_eq_some_iff hids).mp hfound
    exact .inl fun t _ => congrArg t.keyWithId? h
  | none =>
    refine .inr fun t ht => ht.keyWithId?_eq_none fun a ha hid => ?_
    exact List.find?_eq_none.mp hfound a ha (beq_iff_eq.mpr hid)

include hapart

theorem reaches_trimmedId (h : s.idNamed? id = some k) :
    s.Reaches (·.keyWithId? (Text.trim id)) k := by
  unfold idNamed? at h
  cases hfound : s.keyWithId? id with
  | some a =>
    rw [hfound, Option.some_or, Option.map_some, Option.some.injEq] at h
    obtain ⟨ha, rfl⟩ := (keyWithId?_eq_some_iff hids).mp hfound
    by_cases hsame : Text.trim a.id = a.id
    · exact .inl fun t _ => congrArg t.keyWithId? (hsame.trans h)
    · -- the id has blanks around it, and without them it is nobody's
      refine .inr fun t ht => ht.keyWithId?_eq_none fun b hb hid => ?_
      have hne : a ≠ b := by
        rintro rfl
        exact hsame hid.symm
      exact (hapart a ha b hb hne).1 hid.symm
  | none =>
    rw [hfound, Option.none_or, Option.map_eq_some_iff] at h
    obtain ⟨a, ha, rfl⟩ := h
    exact .inl fun t _ => congrArg t.keyWithId? ((keyWithId?_eq_some_iff hids).mp ha).2.symm

include hdistinct

theorem reaches_credential (h : s.idCalled? credential = some k) :
    s.Reaches (·.findKey? credential) k := by
  by_cases hblank : Text.trim credential = ""
  · exact .inr fun t _ => by simp only [findKey?_eq, if_pos hblank]
  have hfind (t : Store) :
      t.findKey? credential = t.keyWithCredential? (Text.trim credential) := by
    rw [findKey?_eq, if_neg hblank]
  simp only [Reaches, hfind]
  unfold idCalled? at h
  cases hfound : s.keyWithCredential? credential with
  | some a =>
    rw [hfound, Option.some_or, Option.map_some, Option.some.injEq] at h
    obtain ⟨ha, rfl⟩ := (keyWithCredential?_eq_some_iff hdistinct).mp hfound
    by_cases hsame : Text.trim a.credential = a.credential
    · rw [hsame, ← h]
      exact .inl fun t ht => ht.keyWithCredential?_eq hids hdistinct ha
    · refine .inr fun t ht => ht.keyWithCredential?_eq_none fun b hb hcredential => ?_
      have hne : a ≠ b := by
        rintro rfl
        exact hsame hcredential.symm
      have hfilled : b.credential ≠ "" := hcredential ▸ hblank
      exact (hapart a ha b hb hne).2 hfilled hcredential.symm
  | none =>
    rw [hfound, Option.none_or, Option.map_eq_some_iff] at h
    obtain ⟨a, ha, rfl⟩ := h
    obtain ⟨hmem, hcredential⟩ := (keyWithCredential?_eq_some_iff hdistinct).mp ha
    rw [← hcredential]
    exact .inl fun t ht => ht.keyWithCredential?_eq hids hdistinct hmem

theorem reaches_addressee (h : s.addressee? op = some k) : s.Reaches (·.lookUp? op) k := by
  cases op <;> simp only [addressee?, lookUp?, reduceCtorEq] at h ⊢
  case beginRequest credential => exact reaches_credential hids hdistinct hapart h
  case endRequest credential counted => exact reaches_credential hids hdistinct hapart h
  case endRequestById id counted => exact reaches_trimmedId hids hapart h
  case updateKey id patch => exact reaches_trimmedId hids hapart h
  case deleteKey id =>
    by_cases hblank : Text.trim id = ""
    · exact .inr fun t _ => by simp only [findKeyById?_eq, if_pos hblank]
    · have hfind (t : Store) : t.findKeyById? id = t.keyWithId? (Text.trim id) := by
        rw [findKeyById?_eq, if_neg hblank]
      simp only [Reaches, hfind]
      exact reaches_trimmedId hids hapart h
  case resetUsage id => exact reaches_id hids h
  case releaseSlots id => exact reaches_id hids h

/-! ## One operation -/

/-- What a look-up finds is acted on, and has the id that the operation is addressed to. -/
theorem actsOn_or_unchanged (hconcerns : s.Concerns op) (hkey : s.addressee? op = some k)
    (ht : s.Descends t) :
    (t.lookUp? op = none ∧ t.answer op = .error .keyNotFound ∧ t.apply op = t) ∨
      ∃ key, t.lookUp? op = some key ∧ t.keyWithId? k = some key ∧ key.id = k ∧
        t.ActsOn op key := by
  have hkeys := onKeys_of_addressee? hkey
  cases hfound : t.lookUp? op with
  | none => exact .inl ⟨rfl, unchanged_of_lookUp?_none hkeys hfound⟩
  | some key =>
    rcases reaches_addressee hids hdistinct hapart hkey with hreaches | hnever
    · have hown : t.keyWithId? k = some key := (hreaches t ht).symm.trans hfound
      obtain ⟨hmem, hid⟩ := (keyWithId?_eq_some_iff (ht.ids hids)).mp hown
      have hkeeps := hconcerns.keepsNames key (ht.subset (List.mem_map_of_mem hmem))
      exact .inr ⟨key, rfl, hown, hid,
        actsOn_of_lookUp? (ht.ids hids) (ht.distinct hdistinct) hfound hkeeps⟩
    · cases (hnever t ht).symm.trans hfound

theorem descends_apply (hconcerns : s.Concerns op) (ht : s.Descends t) :
    s.Descends (t.apply op) := by
  obtain ⟨k, hkey⟩ := hconcerns.addressed
  rcases actsOn_or_unchanged hids hdistinct hapart hconcerns hkey ht with
    ⟨-, -, hsame⟩ | ⟨key, -, -, -, hacts⟩
  · rwa [hsame]
  · exact hacts.turns.names.trans ht

/-- The operation leaves the lane of every key alone that it is not addressed to. -/
theorem lane_apply_of_ne (hconcerns : s.Concerns op) (ht : s.Descends t)
    (hkey : s.addressee? op ≠ some j) : (t.apply op).lane j = t.lane j := by
  obtain ⟨k, hk⟩ := hconcerns.addressed
  rcases actsOn_or_unchanged hids hdistinct hapart hconcerns hk ht with
    ⟨-, -, hsame⟩ | ⟨key, -, -, hid, hacts⟩
  · rw [hsame]
  · refine hacts.turns.others j ?_
    rintro rfl
    exact hkey (hk.trans (congrArg some hid.symm))

/-- Its answer and what becomes of the lane that it is addressed to depend on that lane alone. -/
theorem same_of_lane (hconcerns : s.Concerns op) (hkey : s.addressee? op = some k)
    (ht : s.Descends t) (hu : s.Descends u) (hlane : t.lane k = u.lane k) :
    t.answer op = u.answer op ∧ (t.apply op).lane k = (u.apply op).lane k := by
  have hreaches := reaches_addressee hids hdistinct hapart hkey
  have hown : t.keyWithId? k = u.keyWithId? k := congrArg Lane.key hlane
  have hslots : t.inFlightOf k = u.inFlightOf k := congrArg Lane.slots hlane
  have hfind : t.lookUp? op = u.lookUp? op := by
    rcases hreaches with hreaches | hnever
    · exact (hreaches t ht).trans (hown.trans (hreaches u hu).symm)
    · exact (hnever t ht).trans (hnever u hu).symm
  rcases actsOn_or_unchanged hids hdistinct hapart hconcerns hkey ht with
    ⟨hnone, hanswer, hsame⟩ | ⟨key, hfound, -, hid, hacts⟩
  · rw [hfind] at hnone
    obtain ⟨hanswer', hsame'⟩ := unchanged_of_lookUp?_none (onKeys_of_addressee? hkey) hnone
    rw [hanswer, hanswer', hsame, hsame']
    exact ⟨rfl, hlane⟩
  · rcases actsOn_or_unchanged hids hdistinct hapart hconcerns hkey hu with
      ⟨hnone, -, -⟩ | ⟨key', hfound', -, -, hacts'⟩
    · rw [← hfind, hfound] at hnone
      cases hnone
    · have hsame : key' = key := by
        rw [← hfind, hfound] at hfound'
        exact (Option.some.inj hfound').symm
      subst hsame
      have hown' := hacts.turns.own
      have hown'' := hacts'.turns.own
      rw [hid] at hown' hown''
      rw [hacts.answer, hacts'.answer, hown', hown'', hid, hslots]
      exact ⟨rfl, rfl⟩

/-! ## Runs -/

theorem descends_after (hrun : ∀ op ∈ run, s.Concerns op) (ht : s.Descends t) :
    s.Descends (Run.after apply t run) := by
  induction run generalizing t with
  | nil => exact ht
  | cons op rest ih =>
    obtain ⟨hconcerns, hrest⟩ := List.forall_mem_cons.mp hrun
    exact ih hrest (descends_apply hids hdistinct hapart hconcerns ht)

theorem lane_after_of_ne (hrun : ∀ op ∈ run, s.Concerns op) (ht : s.Descends t)
    (hothers : ∀ op ∈ run, s.addressee? op ≠ some k) :
    (Run.after apply t run).lane k = t.lane k := by
  induction run generalizing t with
  | nil => rfl
  | cons op rest ih =>
    obtain ⟨hconcerns, hrest⟩ := List.forall_mem_cons.mp hrun
    obtain ⟨hother, hothers⟩ := List.forall_mem_cons.mp hothers
    have hnext := descends_apply hids hdistinct hapart hconcerns ht
    exact (ih hrest hnext hothers).trans
      (lane_apply_of_ne hids hdistinct hapart hconcerns ht hother)

end Reaches

/-- The operations of a run that are addressed to the key with that id. -/
def ownOperations (s : Store) (k : String) (run : List Operation) : List Operation :=
  run.filter fun op => s.addressee? op == some k

/-- What is answered to them along a run from some state. -/
def ownAnswers (s : Store) (k : String) (t : Store) (run : List Operation) :
    List (Except StoreError Reply) :=
  Run.collect apply (fun t op => if s.addressee? op = some k then some (t.answer op) else none) t
    run

/-- Two runs from states with the same lane, of which the second is what the first has to do with
it, answer the same to it and leave the same lane. -/
theorem sameLane_after (hids : (s.apiKeys.map ApiKey.id).Nodup) (hdistinct : s.DistinctCredentials)
    (hapart : s.Apart) (hrun : ∀ op ∈ run, s.Concerns op) (ht : s.Descends t) (hu : s.Descends u)
    (hlane : t.lane k = u.lane k) :
    s.ownAnswers k t run = s.ownAnswers k u (s.ownOperations k run) ∧
      (Run.after apply t run).lane k = (Run.after apply u (s.ownOperations k run)).lane k := by
  induction run generalizing t u with
  | nil => exact ⟨rfl, hlane⟩
  | cons op rest ih =>
    obtain ⟨hconcerns, hrest⟩ := List.forall_mem_cons.mp hrun
    have hnext := descends_apply hids hdistinct hapart hconcerns ht
    by_cases hkey : s.addressee? op = some k
    · have hown : s.ownOperations k (op :: rest) = op :: s.ownOperations k rest :=
        List.filter_cons_of_pos (by simpa using hkey)
      obtain ⟨hanswer, hlane'⟩ := same_of_lane hids hdistinct hapart hconcerns hkey ht hu hlane
      obtain ⟨hanswers, hfinal⟩ :=
        ih hrest hnext (descends_apply hids hdistinct hapart hconcerns hu) hlane'
      rw [hown]
      refine ⟨?_, hfinal⟩
      simp only [ownAnswers, Run.collect, if_pos hkey, hanswer] at hanswers ⊢
      rw [hanswers]
    · have hown : s.ownOperations k (op :: rest) = s.ownOperations k rest :=
        List.filter_cons_of_neg (by simpa using hkey)
      have hlane' := lane_apply_of_ne hids hdistinct hapart hconcerns ht hkey
      obtain ⟨hanswers, hfinal⟩ := ih hrest hnext hu (hlane'.trans hlane)
      rw [hown]
      refine ⟨?_, hfinal⟩
      rw [← hanswers]
      simp only [ownAnswers, Run.collect, if_neg hkey, Option.toList_none, List.nil_append]

/-! ## Isolation -/

/-- The operations are answered the same in both orders, and leave the same keys and slots. -/
structure Swaps (t : Store) (a b : Operation) : Prop where
  first : (t.apply b).answer a = t.answer a
  second : (t.apply a).answer b = t.answer b
  apiKeys : ((t.apply a).apply b).apiKeys = ((t.apply b).apply a).apiKeys
  slots : ∀ k, ((t.apply a).apply b).inFlightOf k = ((t.apply b).apply a).inFlightOf k

/-- The operations on one key are not disturbed by those on others. -/
structure Isolates (s : Store) : Prop where
  /-- Without the operations on other keys, those on the key are answered the same, and its record
  and its slots are the same in the end. -/
  projected : ∀ run, (∀ op ∈ run, s.Concerns op) → ∀ k,
    s.ownAnswers k s run = s.ownAnswers k s (s.ownOperations k run) ∧
      (Run.after apply s run).keyWithId? k =
        (Run.after apply s (s.ownOperations k run)).keyWithId? k ∧
      (Run.after apply s run).inFlightOf k =
        (Run.after apply s (s.ownOperations k run)).inFlightOf k
  /-- In any state of a run, two operations on different keys may change places. -/
  commutes : ∀ run, (∀ op ∈ run, s.Concerns op) → ∀ a b, s.Concerns a → s.Concerns b →
    s.addressee? a ≠ s.addressee? b → (Run.after apply s run).Swaps a b
  /-- However many operations on other keys come before it, an operation is answered the same. -/
  undisturbed : ∀ run load, (∀ op ∈ run ++ load, s.Concerns op) → ∀ op, s.Concerns op →
    (∀ other ∈ load, s.addressee? other ≠ s.addressee? op) →
    (Run.after apply s (run ++ load)).answer op = (Run.after apply s run).answer op

theorem swaps {a b : Operation} (hids : (s.apiKeys.map ApiKey.id).Nodup)
    (hdistinct : s.DistinctCredentials) (hapart : s.Apart) (ha : s.Concerns a) (hb : s.Concerns b)
    (hne : s.addressee? a ≠ s.addressee? b) (ht : s.Descends t) : t.Swaps a b := by
  obtain ⟨i, hi⟩ := ha.addressed
  obtain ⟨j, hj⟩ := hb.addressed
  have hij : i ≠ j := fun hij => hne (hi.trans (hij ▸ hj.symm))
  have hta := descends_apply hids hdistinct hapart ha ht
  have htb := descends_apply hids hdistinct hapart hb ht
  have hleavesa {u : Store} (hu : s.Descends u) {k : String} (hk : k ≠ i) :
      (u.apply a).lane k = u.lane k :=
    lane_apply_of_ne hids hdistinct hapart ha hu (by simpa [hi] using hk.symm)
  have hleavesb {u : Store} (hu : s.Descends u) {k : String} (hk : k ≠ j) :
      (u.apply b).lane k = u.lane k :=
    lane_apply_of_ne hids hdistinct hapart hb hu (by simpa [hj] using hk.symm)
  obtain ⟨hfirst, hlanei⟩ := same_of_lane hids hdistinct hapart ha hi htb ht (hleavesb ht hij)
  obtain ⟨hsecond, hlanej⟩ :=
    same_of_lane hids hdistinct hapart hb hj hta ht (hleavesa ht hij.symm)
  have hlane (k : String) : ((t.apply a).apply b).lane k = ((t.apply b).apply a).lane k := by
    by_cases hki : k = i
    · subst hki
      rw [hlanei, hleavesb hta hij]
    · rw [hleavesa htb hki]
      by_cases hkj : k = j
      · subst hkj
        exact hlanej
      · rw [hleavesb hta hkj, hleavesa ht hki, hleavesb ht hkj]
  constructor
  case first => exact hfirst
  case second => exact hsecond
  case apiKeys =>
    rw [(descends_apply hids hdistinct hapart hb hta).apiKeys_eq hids,
      (descends_apply hids hdistinct hapart ha htb).apiKeys_eq hids]
    exact List.filterMap_congr fun c _ => congrArg Lane.key (hlane c.id)
  case slots => exact fun k => congrArg Lane.slots (hlane k)

theorem isolates_of_apart (hids : (s.apiKeys.map ApiKey.id).Nodup)
    (hdistinct : s.DistinctCredentials) (hapart : s.Apart) : s.Isolates := by
  have hself : s.Descends s := List.Sublist.refl _
  constructor
  case projected =>
    intro run hrun k
    obtain ⟨hanswers, hlane⟩ := sameLane_after hids hdistinct hapart hrun hself hself rfl
    exact ⟨hanswers, congrArg Lane.key hlane, congrArg Lane.slots hlane⟩
  case commutes =>
    intro run hrun a b ha hb hne
    exact swaps hids hdistinct hapart ha hb hne (descends_after hids hdistinct hapart hrun hself)
  case undisturbed =>
    intro run load hrun op hop hothers
    obtain ⟨hpast, hload⟩ := List.forall_mem_append.mp hrun
    obtain ⟨k, hk⟩ := hop.addressed
    have ht := descends_after hids hdistinct hapart hpast hself
    rw [Run.after_append]
    refine (same_of_lane hids hdistinct hapart hop hk
      (descends_after hids hdistinct hapart hload ht) ht ?_).1
    exact lane_after_of_ne hids hdistinct hapart hload ht fun other hother =>
      hk ▸ hothers other hother

/-! ## Keys that are reached through others -/

/-- A completion that is addressed to another key and takes place on this one shows in its
record. -/
theorem not_isolates (op : Operation) (hids : (s.apiKeys.map ApiKey.id).Nodup)
    (hdistinct : s.DistinctCredentials) (hb : b ∈ s.apiKeys) (hconcerns : s.Concerns op)
    (hkey : s.addressee? op ≠ some b.id)
    (hreaches : ∀ t, s.Descends t → t.lookUp? op = t.keyWithId? b.id)
    (hcounts : ∀ n, op.onKey b.resetUsage n = Lane.complete true b.resetUsage n) :
    ¬ s.Isolates := by
  intro hisolates
  have hown := keyWithId?_of_mem hids hb
  have hreset : s.addressee? (.resetUsage b.id) = some b.id := by
    rw [addressee?, idNamed?, hown, Option.some_or, Option.map_some]
  have hturns := (actsOn_resetUsage hids hown).turns
  have hfirst : (s.apply (.resetUsage b.id)).keyWithId? b.id = some b.resetUsage :=
    congrArg Lane.key hturns.own
  have hdescends : s.Descends (s.apply (.resetUsage b.id)) := hturns.names
  have hacts : (s.apply (.resetUsage b.id)).ActsOn op b.resetUsage := by
    refine actsOn_of_lookUp? (hdescends.ids hids) (hdescends.distinct hdistinct)
      ((hreaches _ hdescends).trans hfirst) ?_
    exact hconcerns.keepsNames b.resetUsage (List.mem_map.mpr ⟨b, hb, rfl⟩)
  have hrun : ∀ e ∈ [.resetUsage b.id, op], s.Concerns e := by
    simpa using ⟨⟨⟨b.id, hreset⟩, fun _ _ => trivial⟩, hconcerns⟩
  have hleft : s.ownOperations b.id [.resetUsage b.id, op] = [.resetUsage b.id] := by
    simp [ownOperations, hreset, hkey]
  have hrecord := (hisolates.projected _ hrun b.id).2.1
  have hsecond : ((s.apply (.resetUsage b.id)).apply op).keyWithId? b.id =
      some b.resetUsage.recordUse := by
    have hlane := congrArg Lane.key hacts.turns.own
    rwa [hcounts] at hlane
  rw [hleft] at hrecord
  change ((s.apply (.resetUsage b.id)).apply op).keyWithId? b.id =
    (s.apply (.resetUsage b.id)).keyWithId? b.id at hrecord
  rw [hsecond, hfirst, Option.some.injEq] at hrecord
  have hcount := congrArg ApiKey.usedCount hrecord
  simp [ApiKey.recordUse, ApiKey.resetUsage] at hcount

theorem apart_of_isolates (hids : (s.apiKeys.map ApiKey.id).Nodup)
    (hdistinct : s.DistinctCredentials) (hisolates : s.Isolates) : s.Apart := by
  intro a ha b hb hne
  have hother : a.id ≠ b.id := fun hsame => hne (List.inj_on_of_nodup_map hids ha hb hsame)
  constructor
  · intro htrim
    have hkey : s.addressee? (.endRequestById a.id true) = some a.id := by
      rw [addressee?, idNamed?, keyWithId?_of_mem hids ha, Option.some_or, Option.map_some]
    refine not_isolates (.endRequestById a.id true) hids hdistinct hb
      ⟨⟨a.id, hkey⟩, fun _ _ => trivial⟩ ?_ ?_ (fun _ => rfl) hisolates
    · simpa [hkey] using hother
    · intro t _
      rw [lookUp?, htrim]
  · intro hfilled htrim
    have hfound : s.keyWithCredential? a.credential = some a :=
      (keyWithCredential?_eq_some_iff hdistinct).mpr ⟨ha, rfl⟩
    have hkey : s.addressee? (.endRequest a.credential true) = some a.id := by
      rw [addressee?, idCalled?, hfound, Option.some_or, Option.map_some]
    refine not_isolates (.endRequest a.credential true) hids hdistinct hb
      ⟨⟨a.id, hkey⟩, fun _ _ => trivial⟩ ?_ ?_ (fun _ => rfl) hisolates
    · simpa [hkey] using hother
    · intro t ht
      rw [lookUp?, findKey?_eq, htrim, if_neg hfilled]
      exact ht.keyWithCredential?_eq hids hdistinct hb

/-- Keys with distinct ids and distinct credentials are isolated from each other exactly if none is
reached through the id or the credential of another one. -/
theorem isolates_iff_apart (s : Store) (hids : (s.apiKeys.map ApiKey.id).Nodup)
    (hdistinct : s.DistinctCredentials) : s.Isolates ↔ s.Apart :=
  ⟨apart_of_isolates hids hdistinct, isolates_of_apart hids hdistinct⟩

/-- Two keys with requests in flight, the second with blanks around its credential. -/
def neighbours : Store :=
  { stocked [{ ApiKey.fresh "tk_door" "" .epoch with id := "key_1", concurrencyLimit := 2 },
      { ApiKey.fresh " tk_gate " "" .epoch with id := "key_2", totalLimit := 1 }] with
    inFlight := [("key_1", 1), ("key_2", 3)] }

theorem isolates_neighbours :
    (neighbours.apiKeys.map ApiKey.id).Nodup ∧ neighbours.DistinctCredentials ∧
      neighbours.Isolates := by
  have hids : (neighbours.apiKeys.map ApiKey.id).Nodup := by decide +kernel
  have hdistinct : neighbours.DistinctCredentials := by decide +kernel
  have hapart : neighbours.Apart := by decide +kernel
  exact ⟨hids, hdistinct, (isolates_iff_apart neighbours hids hdistinct).mpr hapart⟩

/-- Two keys whose ids differ in the blanks around them. -/
def lookalikes : Store :=
  stocked [{ ApiKey.fresh "tk_door" "" .epoch with id := "key_1", totalLimit := 1 },
    { ApiKey.fresh "tk_gate" "" .epoch with id := " key_1 " }]

def lookalikeRun : List Operation := [.endRequestById " key_1 " true, .beginRequest "tk_door"]

/-- A counted completion that is addressed to the second key by its id uses up the quota of the
first, on which the next request is then refused, and leaves the second as it was. -/
theorem quota_spent_by_lookalike :
    (lookalikes.apiKeys.map ApiKey.id).Nodup ∧ lookalikes.DistinctCredentials ∧
      (∀ op ∈ lookalikeRun, lookalikes.Concerns op) ∧
      lookalikes.addressee? (.endRequestById " key_1 " true) = some " key_1 " ∧
      lookalikes.ownAnswers "key_1" lookalikes lookalikeRun = [.error .quotaExceeded] ∧
      lookalikes.ownAnswers "key_1" lookalikes (lookalikes.ownOperations "key_1" lookalikeRun) =
        [.ok (.key { ApiKey.fresh "tk_door" "" .epoch with id := "key_1", totalLimit := 1 })] ∧
      (Run.after apply lookalikes lookalikeRun).keyWithId? " key_1 " =
        lookalikes.keyWithId? " key_1 " := by
  refine ⟨by decide +kernel, by decide +kernel, ?_, ?_⟩
  · simp only [lookalikeRun, List.forall_mem_cons]
    refine ⟨⟨⟨" key_1 ", by decide +kernel⟩, fun _ _ => trivial⟩, ?_⟩
    refine ⟨⟨⟨"key_1", by decide +kernel⟩, fun _ _ => trivial⟩, by simp⟩
  · decide +kernel

end Turnstile.Store
