import Turnstile.Proofs.Command.Addition
import Turnstile.Proofs.Store.Account

/-! The owner of a key that is added. A name, in any spelling, leads to the user who has it. An id
leads to its user unless it is the name of somebody else: a name wins over an id. -/

namespace Turnstile

variable {r : RecordSet} {u v : User} {asked userId : String}

/-- The text asks for the user, by the name or by the id. -/
def User.AskedBy (u : User) (asked : String) : Prop :=
  sameUsername u.username (Text.trim asked) = true ∨ u.id = Text.trim asked

namespace RecordSet

theorem Sound.ne_empty_of_askedBy (h : r.Sound) (hu : u ∈ r.users) (hasked : u.AskedBy asked) :
    Text.trim asked ≠ "" := by
  intro hempty
  rcases hasked with hname | hid
  · rw [hempty, sameUsername_iff, Text.toLower_eq_empty_iff.mpr rfl,
      Text.toLower_eq_empty_iff] at hname
    have hsome := (h.users.rule u hu).nonempty
    rw [hname] at hsome
    exact absurd hsome (by decide)
  · exact h.users.ids_ne u hu (hid.trans hempty)

namespace Owner

theorem id_of_named (howner : r.Owner (some asked) userId) (h : r.Sound) (hu : u ∈ r.users)
    (hname : sameUsername u.username (Text.trim asked) = true) : userId = u.id := by
  cases howner with
  | named hfound =>
    rw [(account_of_kept h.users hu).find?_eq_some hname] at hfound
    rw [Option.some.inj hfound]
  | identified hunnamed =>
    rw [hunnamed u hu] at hname
    cases hname

theorem id_of_unnamed (howner : r.Owner (some asked) userId)
    (hunnamed : ∀ v ∈ r.users, sameUsername v.username (Text.trim asked) = false) :
    userId = Text.trim asked := by
  cases howner with
  | named hfound =>
    have hname := List.find?_some hfound
    rw [hunnamed _ (List.mem_of_find?_eq_some hfound)] at hname
    cases hname
  | identified _ hid => exact Lookup.name_of_find? hid

/-- The id of a user leads to the user exactly if nobody else has it for a name. -/
theorem id_iff (howner : r.Owner (some asked) userId) (h : r.Sound) (hu : u ∈ r.users)
    (hid : u.id = Text.trim asked) :
    userId = u.id ↔ ∀ v ∈ r.users, sameUsername v.username u.id = true → v = u := by
  rw [hid]
  constructor
  · intro howned v hv hname
    rw [howner.id_of_named h hv hname, ← hid] at howned
    exact List.inj_on_of_nodup_map h.users.ids hv hu howned
  · intro halone
    by_cases hnamed : ∃ v ∈ r.users, sameUsername v.username (Text.trim asked) = true
    · obtain ⟨v, hv, hname⟩ := hnamed
      rw [howner.id_of_named h hv hname, halone v hv hname, hid]
    · refine howner.id_of_unnamed fun v hv => ?_
      rw [Bool.eq_false_iff]
      exact fun hname => hnamed ⟨v, hv, hname⟩

end Owner

end RecordSet

namespace Command

variable {c : Config} {s : Surroundings} {a : KeyAddition} {files : FileTree} {store : Store}

/-- A user who is asked for is found. -/
theorem ownerId_of_askedBy (h : store.records.Sound) (hu : u ∈ store.users)
    (hasked : u.AskedBy asked) : ∃ userId, ownerId store (some asked) = .ok userId := by
  have hfilled := h.ne_empty_of_askedBy hu hasked
  suffices hfound : ∃ found,
      (store.findUserByName? asked <|> store.findUser? asked) = some found by
    obtain ⟨found, hfound⟩ := hfound
    exact ⟨found.id, by rw [ownerId, hfound]⟩
  cases hnamed : store.findUserByName? asked with
  | some found => exact ⟨found, rfl⟩
  | none =>
    have hid : u.id = Text.trim asked := by
      refine hasked.resolve_left ?_
      rw [Store.not_sameUsername_of_findUserByName? hnamed hfilled u hu]
      exact Bool.false_ne_true
    have hany : store.users.any (·.id == Text.trim asked) = true :=
      List.any_eq_true.mpr ⟨u, hu, beq_iff_eq.mpr hid⟩
    obtain ⟨found, hfound⟩ := find?_of_any hany
    have hidentified := Store.findUser?_eq_some_iff.mpr ⟨hfilled, hfound⟩
    exact ⟨found, (Option.orElse_eq_some _ _ _).mpr (.inr ⟨rfl, hidentified⟩)⟩

theorem bind_eq_error {ε α β : Type} {x : Except ε α} {f : α → Except ε β} {e : ε}
    (h : x >>= f = .error e) : x = .error e ∨ ∃ a, x = .ok a ∧ f a = .error e := by
  cases x with
  | error e' => exact .inl (congrArg Except.error (Except.error.inj h))
  | ok a => exact .inr ⟨a, rfl, h⟩

theorem mapError_store_ne {α : Type} {x : Except StoreError α} :
    x.mapError RunFault.store ≠ .error (.owner asked) := by
  cases x <;> simp [Except.mapError]

/-- Only the look-up of the owner fails for want of one. -/
theorem ownerId_of_withKey (h : withKey c s a files = .error (.owner asked)) :
    ∃ hasher store, c.openStore s files = .ok (hasher, store) ∧
      ownerId store a.owner = .error (.owner asked) := by
  rcases bind_eq_error h with hclosed | ⟨⟨hasher, store⟩, hopen, hadded⟩
  · exact absurd hclosed mapError_store_ne
  · refine ⟨hasher, store, mapError_eq_ok hopen, ?_⟩
    rcases bind_eq_error hadded with howner | ⟨userId, -, hkey⟩
    · exact howner
    · rcases bind_eq_error hkey with hrefused | ⟨k, -, hdone⟩
      · exact absurd hrefused mapError_store_ne
      · cases hdone

end Command

namespace Call

variable {call : Call} {files : FileTree} {a : KeyAddition} {c : Config}

/-- A user who is asked for is found in the data file. -/
theorem answer_ne_owner (hcommand : call.command? files = some (.addKey a, c))
    (howner : a.owner = some asked)
    (hrecords : files.recordSet? (call.surroundings.dataPath c) call.surroundings.draw.now = some r)
    (hsound : r.Sound) (hu : u ∈ r.users) (hasked : u.AskedBy asked) :
    (call.answer files).1 ≠ .error (.owner asked) := by
  intro hanswer
  rcases call.answer_cases files with ⟨hno, -⟩ | ⟨command, c', hcommand', hrun⟩
  · rw [hno] at hcommand
    cases hcommand
  · cases hcommand.symm.trans hcommand'
    rw [hrun, Command.run] at hanswer
    split at hanswer
    · rename_i k store hmade
      unfold Store.saveAndPrint at hanswer
      split at hanswer <;> cases hanswer
    · rename_i fault hfault
      cases hanswer
      obtain ⟨hasher, store, hopen, hlost⟩ := Command.ownerId_of_withKey hfault
      have hstore := (Config.of_openStore hopen).2.2
      cases hrecords.symm.trans hstore
      obtain ⟨userId, hfound⟩ := Command.ownerId_of_askedBy hsound hu hasked
      rw [howner, hfound] at hlost
      cases hlost

/-- A user who is asked for by the name, in any spelling, gets the key, and one who is asked for by
the id gets it exactly if nobody else has that id for a name; else the key is that user's. -/
theorem key_owned_as_asked (hfiles : files.WellFormed) (htag : call.FreshTag files)
    (hcommand : call.command? files = some (.addKey a, c)) (howner : a.owner = some asked)
    (hrecords : files.recordSet? (call.surroundings.dataPath c) call.surroundings.draw.now = some r)
    (hsound : r.Sound) :
    ((∃ u ∈ r.users, u.AskedBy asked) → (call.answer files).1 ≠ .error (.owner asked)) ∧
      ∀ text, (call.answer files).1 = .ok text → ∃ k : ApiKey,
        (∀ later, (call.answer files).2.recordSet? (call.surroundings.dataPath c) later =
          some (r.extended call.surroundings.draw.now (.key k))) ∧
        ∀ u ∈ r.users, (sameUsername u.username (Text.trim asked) = true → k.userId = u.id) ∧
          (u.id = Text.trim asked →
            (k.userId = u.id ↔ ∀ v ∈ r.users, sameUsername v.username u.id = true → v = u)) := by
  constructor
  · rintro ⟨u, hu, hasked⟩
    exact answer_ne_owner hcommand howner hrecords hsound hu hasked
  · intro text hanswer
    obtain ⟨r', added, hrecords', hrequests, -, hafter, -⟩ :=
      (allOrNothing hfiles htag).added _ _ _ hcommand rfl hanswer
    cases hrecords.symm.trans hrecords'
    cases hrequests with
    | key howned =>
      rw [howner] at howned
      exact ⟨_, hafter, fun u hu => ⟨howned.id_of_named hsound hu, howned.id_iff hsound hu⟩⟩

/-- One user has another's id for a name, and a third has it for an id, with blanks around it. -/
def namesakeFiles : FileTree :=
  FileTree.empty.set ["work", "keygate-data.json"]
    (.file (Utf8.encode ("\x7b\"users\":[\x7b\"id\":\"usr_1\",\"username\":\"ann\"\x7d," ++
      "\x7b\"id\":\"usr_2\",\"username\":\"usr_1\"\x7d," ++
      "\x7b\"id\":\" usr_2 \",\"username\":\"bob\"\x7d]\x7d")) 0o644)

def namesakes : List User :=
  [⟨"usr_1", "ann", "", .user, false, .epoch⟩, ⟨"usr_2", "usr_1", "", .user, false, .epoch⟩,
    ⟨" usr_2 ", "bob", "", .user, false, .epoch⟩]

def bareSurroundings : Surroundings := ⟨[], [], ⟨.epoch, "usr_3", "key_1", "kg-a", [], "0", ""⟩⟩

/-- A call for a key of the user who is asked for. -/
def ownedCall (asked : String) : Call := ⟨["key", "add", "--user", asked], bareSurroundings⟩

def ownedAddition (asked : String) : KeyAddition := ⟨"", some asked, 0, 0, false, false, none⟩

theorem wellFormed_namesakeFiles : namesakeFiles.WellFormed := by
  refine FileTree.wellFormed_empty.set rfl ?_
  rw [FileTree.node?_empty (List.cons_ne_nil _ _)]
  simp

theorem dataPath_ownedCall (asked : String) :
    (ownedCall asked).surroundings.dataPath {} = "./keygate-data.json" := by
  have hpath : bareSurroundings.dataPath {} = "./keygate-data.json" := by decide +kernel
  exact hpath

theorem recordSet?_namesakeFiles : namesakeFiles.recordSet? "./keygate-data.json" .epoch =
    some ⟨1, .epoch, namesakes, []⟩ := by
  decide +kernel

theorem sound_namesakes : RecordSet.Sound ⟨1, .epoch, namesakes, []⟩ := by decide +kernel

section

variable (hcommand : (ownedCall asked).command? namesakeFiles =
  some (.addKey (ownedAddition asked), {}))
include hcommand

theorem freshTag_ownedCall : (ownedCall asked).FreshTag namesakeFiles := by
  refine ⟨by simp [ownedCall, bareSurroundings], fun command c hfound => ?_⟩
  cases hcommand.symm.trans hfound
  have hname : ["work", "keygate-data.json"].getLast? ≠ some (Replacement.temporaryName
      ⟨bareSurroundings.dataPath {}, [], bareSurroundings.draw.tag⟩) := by decide +kernel
  exact Replacement.unused_empty.set (List.cons_ne_nil _ _) hname

theorem owner_of_ownedCall {text : String}
    (hanswer : ((ownedCall asked).answer namesakeFiles).1 = .ok text) :
    ∃ k : ApiKey, RecordSet.Owner ⟨1, .epoch, namesakes, []⟩ (some asked) k.userId ∧ ∀ later,
      ((ownedCall asked).answer namesakeFiles).2.recordSet? "./keygate-data.json" later =
        some ⟨1, .epoch, namesakes, [k]⟩ := by
  obtain ⟨r, added, hrecords, hrequests, -, hafter, -⟩ :=
    (allOrNothing wellFormed_namesakeFiles (freshTag_ownedCall hcommand)).added _ _ _ hcommand rfl
      hanswer
  rw [dataPath_ownedCall] at hrecords hafter
  cases recordSet?_namesakeFiles.symm.trans hrecords
  cases hrequests with
  | key howned =>
    refine ⟨_, ?_, hafter⟩
    exact howned

end

theorem key_owned_as_asked_namesake :
    (ownedCall " usr_2 ").FreshTag namesakeFiles ∧
      (ownedCall " usr_2 ").command? namesakeFiles =
        some (.addKey (ownedAddition " usr_2 "), {}) ∧
      ∃ k : ApiKey, k.userId = "usr_2" ∧ ∀ later,
        ((ownedCall " usr_2 ").answer namesakeFiles).2.recordSet? "./keygate-data.json" later =
          some ⟨1, .epoch, namesakes, [k]⟩ := by
  have hcommand : (ownedCall " usr_2 ").command? namesakeFiles =
      some (.addKey (ownedAddition " usr_2 "), {}) := by decide +kernel
  have htag := freshTag_ownedCall hcommand
  have hanswer : ((ownedCall " usr_2 ").answer namesakeFiles).1 = .ok "kg-a\n" := by decide +kernel
  obtain ⟨-, hadded⟩ := key_owned_as_asked wellFormed_namesakeFiles htag hcommand rfl
    recordSet?_namesakeFiles sound_namesakes
  obtain ⟨k, hafter, howned⟩ := hadded _ hanswer
  obtain ⟨-, hid⟩ := howned ⟨"usr_2", "usr_1", "", .user, false, .epoch⟩ (by decide +kernel)
  exact ⟨htag, hcommand, k, (hid (by decide)).mpr (by decide +kernel), hafter⟩

/-- Two users whose keys go to the one between them: the id of the first is the name of that one,
and that of the last is the same id but for the blanks. -/
theorem key_owned_by_namesake :
    RecordSet.Sound ⟨1, .epoch, namesakes, []⟩ ∧
      namesakeFiles.recordSet? "./keygate-data.json" .epoch = some ⟨1, .epoch, namesakes, []⟩ ∧
      ∀ asked, asked ∈ ["usr_1", " usr_2 "] → (∃ u ∈ namesakes, u.id = asked) ∧
        ∃ k : ApiKey, k.userId = "usr_2" ∧ ∀ later,
          ((ownedCall asked).answer namesakeFiles).2.recordSet? "./keygate-data.json" later =
            some ⟨1, .epoch, namesakes, [k]⟩ := by
  refine ⟨sound_namesakes, recordSet?_namesakeFiles, fun asked hasked => ?_⟩
  have hcommand : (ownedCall asked).command? namesakeFiles =
      some (.addKey (ownedAddition asked), {}) := by
    revert asked
    decide +kernel
  have hanswer : ((ownedCall asked).answer namesakeFiles).1 = .ok "kg-a\n" := by
    clear hcommand
    revert asked
    decide +kernel
  obtain ⟨k, howner, hafter⟩ := owner_of_ownedCall hcommand hanswer
  refine ⟨?_, k, ?_, hafter⟩
  · clear hcommand hanswer howner hafter
    revert asked
    decide +kernel
  · simp only [List.mem_cons, List.not_mem_nil, or_false] at hasked
    rcases hasked with rfl | rfl
    · exact howner.id_of_named sound_namesakes
        (u := ⟨"usr_2", "usr_1", "", .user, false, .epoch⟩) (by decide +kernel) (by decide +kernel)
    · exact (howner.id_of_unnamed (by decide +kernel)).trans (by decide)

end Call

end Turnstile
