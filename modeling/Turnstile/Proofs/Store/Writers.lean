import Turnstile.Proofs.Store.Naming
import Turnstile.Proofs.Store.Usage

/-! Two writers of one record. They write as often as they like and in any order, and others use
the record in between. A write is a patch of the record as it stands, and is refused if the patched
record may not stand there. Where the two patches commute with each other and with a use of the
record, nothing that a writer writes is lost, and whether a writer is refused does not depend on the
other. -/

namespace Turnstile

open Store (replaceFirst)

/-- The operation succeeds on the store. -/
def Store.accepts (s : Store) (op : Operation) : Bool := (s.answer op).isOk

/-- One of two writers. -/
inductive Writer where
  | first
  | second
deriving DecidableEq

/-- The first of two things for the first writer, and the second for the second. -/
def Writer.pick {β : Type} (a b : β) : Writer → β
  | .first => a
  | .second => b

/-- What each of two writers does to the record that an id leads to. -/
abbrev Writers := Writer → String → Operation

namespace Writers

/-- A writer is next, who spells the id of the record in some way, or somebody else. -/
inductive Turn where
  | write (who : Writer) (id : String)
  | other (op : Operation)

variable (w : Writers)

def operation : Turn → Operation
  | .write who id => w who id
  | .other op => op

def step (s : Store) (turn : Turn) : Store := s.apply (w.operation turn)

/-- The id of a write is that of the record, and the others spare it. -/
def Allows (k : String) (spares : Store → Operation → Prop) (s : Store) : Turn → Prop
  | .write _ id => Text.trim id = k
  | .other op => spares s op

instance (k : String) (spares : Store → Operation → Prop) [∀ s op, Decidable (spares s op)]
    (s : Store) (turn : Turn) : Decidable (Allows k spares s turn) :=
  match turn with
  | .write _ id => inferInstanceAs (Decidable (Text.trim id = k))
  | .other op => inferInstanceAs (Decidable (spares s op))

/-- The two write the record with this id and nothing else is done to it than what spares it. -/
def Share (k : String) (spares : Store → Operation → Prop) (s : Store) (run : List Turn) : Prop :=
  ∀ past turn, past ++ [turn] <+: run → Allows k spares (Run.after w.step s past) turn

/-- How often the others use the record. -/
def uses (used : Store → Operation → Bool) (s : Store) (run : List Turn) : Nat :=
  Run.tally w.step (fun t turn => match turn with
    | .write .. => false
    | .other op => used t op) s run

/-- No write is lost in the run. -/
structure LosesNone (k : String) (s : Store) (run : List Turn) (admitted : Writer → Bool)
    (both : Store → Prop) : Prop where
  /-- A writer who is admitted is accepted in every state of the run, and any other one in none. -/
  accepted : ∀ past, past <+: run → ∀ who id, Text.trim id = k →
    (Run.after w.step s past).accepts (w who id) = admitted who
  /-- Once both have written, the record is what both wanted, whoever was first. -/
  merged : (∀ who, admitted who = true ∧ ∃ id, .write who id ∈ run) →
    both (Run.after w.step s run)
  /-- Whoever has written changes nothing by writing the same again. -/
  again : ∀ past, past <+: run → ∀ who id id', admitted who = true → .write who id ∈ past →
    Text.trim id' = k →
    (Run.after w.step s past).apply (w who id') = Run.after w.step s past

end Writers

/-! ## Cells -/

/-- A cell for one record: which one a store holds there, which ones may stand there, and what a use
makes of them. -/
structure Cell (α : Type) where
  holds : Store → α → Prop
  fits : α → Bool
  use : α → α

namespace Cell

variable {α : Type} (cell : Cell α) {f : Writer → α → α} {a c d : α} {s : Store}

/-- The operation patches the record in the cell, if the patched record fits. -/
structure Patches (patch : α → α) (op : Operation) : Prop where
  accepts : ∀ t c, cell.holds t c → t.accepts op = cell.fits (patch c)
  written : ∀ t c, cell.holds t c → cell.fits (patch c) = true →
    cell.holds (t.apply op) (patch c)
  refused : ∀ t c, cell.holds t c → cell.fits (patch c) = false → t.apply op = t
  still : ∀ t c, cell.holds t c → patch c = c → t.apply op = t

/-- Patches of two writers who do not get in each other's way. Whether a patched record fits does
not depend on the record that fits before. -/
structure Shared (f : Writer → α → α) : Prop where
  again : ∀ who c, f who (f who c) = f who c
  commute : ∀ c, f .first (f .second c) = f .second (f .first c)
  use : ∀ who c, f who (cell.use c) = cell.use (f who c)
  steady : ∀ who c d, cell.fits c = true → cell.fits d = true →
    cell.fits (f who c) = cell.fits (f who d)
  fits_use : ∀ c, cell.fits (cell.use c) = cell.fits c

/-- What has become of the record: it fits, has what was written into it, and is otherwise as it was
at first, but for the uses: both patches together make the same of either. -/
structure Merging (f : Writer → α → α) (a : α) (past : List Writers.Turn) (n : Nat) (c : α) :
    Prop where
  fits : cell.fits c = true
  written : ∀ who id, .write who id ∈ past → cell.fits (f who a) = true → f who c = c
  rest : f .first (f .second c) = f .first (f .second (cell.use^[n] a))

variable {cell} {past : List Writers.Turn} {n : Nat}

/-- If a record fits or not by its name, then a patch that sets the name, or keeps it, is steady. -/
theorem steady_of_name (name : α → String) {patch : α → α}
    (hfits : ∀ c d, name c = name d → cell.fits c = cell.fits d)
    (hpatch : (∀ c, name (patch c) = name c) ∨ ∃ text, ∀ c, name (patch c) = text)
    (hc : cell.fits c = true) (hd : cell.fits d = true) :
    cell.fits (patch c) = cell.fits (patch d) := by
  rcases hpatch with hkeeps | ⟨text, hsets⟩
  · rw [hfits _ c (hkeeps c), hfits _ d (hkeeps d), hc, hd]
  · exact hfits _ _ ((hsets c).trans (hsets d).symm)

theorem Shared.commutes (h : cell.Shared f) (i j : Writer) (c : α) :
    f i (f j c) = f j (f i c) := by
  cases i <;> cases j
  · rfl
  · exact h.commute c
  · exact (h.commute c).symm
  · rfl

/-- Either patch is swallowed by both. -/
theorem Shared.absorbs (h : cell.Shared f) (who : Writer) (c : α) :
    f .first (f .second (f who c)) = f .first (f .second c) := by
  cases who with
  | first => rw [h.commutes .second, h.again]
  | second => rw [h.again]

namespace Merging

theorem start (ha : cell.fits a = true) : cell.Merging f a [] 0 a where
  fits := ha
  written := by simp
  rest := rfl

theorem write (hf : cell.Shared f) (h : cell.Merging f a past n c) {who : Writer}
    (hfits : cell.fits (f who c) = true) (id : String) :
    cell.Merging f a (past ++ [.write who id]) n (f who c) := by
  refine ⟨hfits, ?_, (hf.absorbs who c).trans h.rest⟩
  intro writer id' hmem hwrites
  rw [List.mem_append, List.mem_singleton] at hmem
  rcases hmem with hold | hnew
  · rw [hf.commutes, h.written writer id' hold hwrites]
  · cases hnew
    exact hf.again who c

/-- A writer who is refused now would have been refused at first. -/
theorem refuse (hf : cell.Shared f) (h : cell.Merging f a past n c) (ha : cell.fits a = true)
    {who : Writer} (hrefused : cell.fits (f who c) = false) (id : String) :
    cell.Merging f a (past ++ [.write who id]) n c := by
  refine ⟨h.fits, ?_, h.rest⟩
  intro writer id' hmem hwrites
  rw [List.mem_append, List.mem_singleton] at hmem
  rcases hmem with hold | hnew
  · exact h.written writer id' hold hwrites
  · cases hnew
    rw [← hf.steady who c a h.fits ha, hrefused] at hwrites
    cases hwrites

theorem other (hf : cell.Shared f) (h : cell.Merging f a past n c) (op : Operation)
    (used : Bool) :
    cell.Merging f a (past ++ [.other op]) (n + used.toNat)
      (if used then cell.use c else c) := by
  have hwritten : ∀ who id, .write who id ∈ past ++ [.other op] →
      cell.fits (f who a) = true → f who c = c := by
    intro who id hmem
    exact h.written who id (by simpa using hmem)
  cases used with
  | false => exact ⟨h.fits, hwritten, h.rest⟩
  | true =>
    refine ⟨(hf.fits_use c).trans h.fits, ?_, ?_⟩
    · intro who id hmem hwrites
      rw [if_pos rfl, hf.use, hwritten who id hmem hwrites]
    · rw [if_pos rfl, Bool.toNat_true, Function.iterate_succ_apply', hf.use, hf.use, hf.use, hf.use,
        h.rest]

end Merging

/-! ## Runs -/

variable {w : Writers} {k : String} {spares : Store → Operation → Prop}
  {used : Store → Operation → Bool} {run : List Writers.Turn}

/-- Both patches and the uses account for what the cell holds after any part of a run. -/
theorem merging_after (hf : cell.Shared f)
    (hpatches : ∀ who id, Text.trim id = k → cell.Patches (f who) (w who id))
    (hspares : ∀ t c op, cell.holds t c → spares t op →
      cell.holds (t.apply op) (if used t op then cell.use c else c))
    (hholds : cell.holds s a) (hfits : cell.fits a = true) (hrun : w.Share k spares s run) :
    ∀ past, past <+: run → ∃ c, cell.holds (Run.after w.step s past) c ∧
      cell.Merging f a past (w.uses used s past) c := by
  refine Run.prefix_induction ⟨a, hholds, .start hfits⟩ ?_
  rintro past turn hp ⟨c, hc, hmerging⟩
  have hallowed := hrun past turn hp
  rw [Run.after_concat, Writers.uses, Run.tally_concat]
  cases turn with
  | write who id =>
    have hpatch := hpatches who id hallowed
    cases hnext : cell.fits (f who c) with
    | true => exact ⟨f who c, hpatch.written _ c hc hnext, hmerging.write hf hnext id⟩
    | false =>
      refine ⟨c, ?_, hmerging.refuse hf hfits hnext id⟩
      rw [Writers.step, Writers.operation, hpatch.refused _ c hc hnext]
      exact hc
  | other op => exact ⟨_, hspares _ c op hc hallowed, hmerging.other hf op _⟩

/-- Writers whose patches share a cell lose none of their writes, and both leave it the record with
both patches and all uses. -/
theorem losesNone (used : Store → Operation → Bool) (hf : cell.Shared f)
    (hpatches : ∀ who id, Text.trim id = k → cell.Patches (f who) (w who id))
    (hspares : ∀ t c op, cell.holds t c → spares t op →
      cell.holds (t.apply op) (if used t op then cell.use c else c))
    (hholds : cell.holds s a) (hfits : cell.fits a = true) (hrun : w.Share k spares s run) :
    w.LosesNone k s run (fun who => cell.fits (f who a)) fun t =>
      cell.holds t (f .first (f .second (cell.use^[w.uses used s run] a))) := by
  have hafter := merging_after hf hpatches hspares hholds hfits hrun
  refine ⟨?_, ?_, ?_⟩
  · intro past hp who id hspelled
    obtain ⟨c, hc, hmerging⟩ := hafter past hp
    rw [(hpatches who id hspelled).accepts _ c hc, hf.steady who c a hmerging.fits hfits]
  · intro hboth
    obtain ⟨c, hc, hmerging⟩ := hafter run List.prefix_rfl
    have hhas (who : Writer) : f who c = c := by
      obtain ⟨hadmitted, id, hmem⟩ := hboth who
      exact hmerging.written who id hmem hadmitted
    rwa [← hmerging.rest, hhas .second, hhas .first]
  · intro past hp who id id' hadmitted hmem hspelled
    obtain ⟨c, hc, hmerging⟩ := hafter past hp
    exact (hpatches who id' hspelled).still _ c hc (hmerging.written who id hmem hadmitted)

end Cell

/-! ## Records in a list -/

section Records

variable {α : Type} {name : α → String} {check : α → Except Refusal Unit} {clash : α → α → Bool}
  {p : α → Bool} {l : List α} {k : String} {a c d : α}

theorem find?_replaceFirst_self (h : l.find? (name · == k) = some a) (hc : name c = k) :
    (replaceFirst (name · == k) c l).find? (name · == k) = some c := by
  induction l with
  | nil => cases h
  | cons b rest ih =>
    by_cases hb : name b = k
    · simp only [replaceFirst, hb, hc, beq_self_eq_true, if_true, List.find?_cons]
    · simp only [List.find?_cons, beq_false_of_ne hb] at h
      simp only [replaceFirst, beq_false_of_ne hb, Bool.false_eq_true, if_false, List.find?_cons,
        ih h]

/-- The record that was put in a place gives it to the next one. -/
theorem replaceFirst_replaceFirst (hc : name c = k) :
    replaceFirst (name · == k) d (replaceFirst (name · == k) c l) =
      replaceFirst (name · == k) d l := by
  induction l with
  | nil => rfl
  | cons b rest ih =>
    by_cases hb : name b = k
    · simp only [replaceFirst, hb, hc, beq_self_eq_true, if_true]
    · simp only [replaceFirst, beq_false_of_ne hb, ih, Bool.false_eq_true, if_false]

theorem any_replaceFirst (hp : ∀ b, name b = k → p b = false) (hc : name c = k) :
    (replaceFirst (name · == k) c l).any p = l.any p := by
  induction l with
  | nil => rfl
  | cons b rest ih =>
    by_cases hb : name b = k
    · simp only [replaceFirst, hb, beq_self_eq_true, if_true, List.any_cons, hp b hb, hp c hc]
    · simp only [replaceFirst, beq_false_of_ne hb, Bool.false_eq_true, if_false, List.any_cons, ih]

/-- The record may stand in the place of the one with this id: it passes its check and clashes with
no other. -/
def admits (name : α → String) (check : α → Except Refusal Unit) (clash : α → α → Bool)
    (k : String) (l : List α) (c : α) : Bool :=
  (check c).isOk && !(l.any fun b => name b != k && clash b c)

theorem admits_replaceFirst (hc : name c = k) :
    admits name check clash k (replaceFirst (name · == k) c l) d =
      admits name check clash k l d := by
  rw [admits, admits, any_replaceFirst ?_ hc]
  intro b hb
  rw [hb, bne_self_eq_false, Bool.false_and]

/-- A record that passes its check and clashes with no other may stay where it is. -/
theorem admits_self (hcheck : check a = .ok ())
    (hapart : ∀ b ∈ l, name b ≠ name a → clash b a = false) :
    admits name check clash (name a) l a = true := by
  have hfree : l.any (fun b => name b != name a && clash b a) = false := by
    rw [List.any_eq_false]
    intro b hb
    simp only [Bool.and_eq_true, bne_iff_ne, not_and]
    intro hid
    rw [hapart b hb hid]
    decide
  rw [admits, hcheck, hfree]
  rfl

end Records

namespace Cell

variable {α : Type}

/-- The cell of the record with this id in a list. The other records are as they were there. -/
def ofList (records : Store → List α) (name : α → String) (fits : α → Bool) (use : α → α)
    (l : List α) (k : String) : Cell α where
  holds t c := records t = replaceFirst (name · == k) c l ∧ name c = k
  fits := fits
  use := use

/-- An operation that checks a patched record and then writes it back patches the cell of the
record. -/
theorem patches_ofList (records : Store → List α) (write : Store → List α → Store)
    {name : α → String} {check : α → Except Refusal Unit} {clash : α → α → Bool} {use patch : α → α}
    {l : List α} {k : String} {a : α} {op : Operation}
    (hread : ∀ t l, records (write t l) = l) (hwrite : ∀ t, write t (records t) = t)
    (hname : ∀ c, name (patch c) = name c) (hstored : l.find? (name · == k) = some a)
    (hop : ∀ t c, (records t).find? (name · == k) = some c →
      t.accepts op = admits name check clash k (records t) (patch c) ∧
      t.apply op =
        if admits name check clash k (records t) (patch c) then
          write t (replaceFirst (name · == k) (patch c) (records t))
        else t) :
    (ofList records name (admits name check clash k l) use l k).Patches patch op := by
  have hfound (t : Store) (c : α) (hc : records t = replaceFirst (name · == k) c l ∧ name c = k) :
      (records t).find? (name · == k) = some c ∧
        admits name check clash k (records t) (patch c) =
          admits name check clash k l (patch c) := by
    rw [hc.1]
    exact ⟨find?_replaceFirst_self hstored hc.2, admits_replaceFirst hc.2⟩
  refine ⟨?_, ?_, ?_, ?_⟩ <;> intro t c hc
  · obtain ⟨hfind, hsame⟩ := hfound t c hc
    exact (hop t c hfind).1.trans hsame
  · intro hfits
    obtain ⟨hfind, hsame⟩ := hfound t c hc
    rw [(hop t c hfind).2, if_pos (hsame.trans hfits)]
    refine ⟨?_, (hname c).trans hc.2⟩
    rw [hread, hc.1, replaceFirst_replaceFirst hc.2]
  · intro hrefused
    obtain ⟨hfind, hsame⟩ := hfound t c hc
    rw [(hop t c hfind).2, if_neg]
    rw [hsame]
    exact Bool.eq_false_iff.mp hrefused
  · intro hstill
    obtain ⟨hfind, -⟩ := hfound t c hc
    rw [(hop t c hfind).2, hstill, Store.replaceFirst_self hfind, hwrite, ite_self]

end Cell

/-! ## Keys and users -/

/-- The key may stand in the place of the one with this id. -/
def keyAdmits : String → List ApiKey → ApiKey → Bool :=
  admits ApiKey.id (fun c => checkCredential c.credential) fun b c => b.credential == c.credential

/-- The user may stand in the place of the one with this id. The blanks around the name do not
count. -/
def userAdmits : String → List User → User → Bool :=
  admits User.id (fun u => checkUsername u.username) fun v u =>
    sameUsername v.username (Text.trim u.username)

def keyCell (keys : List ApiKey) (k : String) : Cell ApiKey :=
  .ofList Store.apiKeys ApiKey.id (keyAdmits k keys) ApiKey.recordUse keys k

/-- Nothing uses a user up. -/
def userCell (users : List User) (k : String) : Cell User :=
  .ofList Store.users User.id (userAdmits k users) id users k

theorem fits_keyCell (keys : List ApiKey) (k : String) :
    (keyCell keys k).fits = keyAdmits k keys := by
  rw [keyCell, Cell.ofList]

theorem fits_userCell (users : List User) (k : String) :
    (userCell users k).fits = userAdmits k users := by
  rw [userCell, Cell.ofList]

theorem fits_keyCell_congr (keys : List ApiKey) (k : String) (a b : ApiKey)
    (h : a.credential = b.credential) : (keyCell keys k).fits a = (keyCell keys k).fits b := by
  simp only [fits_keyCell, keyAdmits, admits, h]

theorem fits_userCell_congr (users : List User) (k : String) (u v : User)
    (h : Text.trim u.username = Text.trim v.username) :
    (userCell users k).fits u = (userCell users k).fits v := by
  simp only [fits_userCell, userAdmits, admits, checkUsername, h]

/-- What an update makes of a user: the patched name loses the blanks around it. -/
def User.tidied (patch : User → User) (u : User) : User :=
  { patch u with username := Text.trim (patch u).username }

theorem User.id_tidied (patch : User → User) (u : User) :
    (User.tidied patch u).id = (patch u).id := by
  simp only [User.tidied]

/-- The operation changes no key, or it completes a request on the key with this id. -/
def SparesKey (k : String) (s : Store) (op : Operation) : Prop :=
  (s.apply op).apiKeys = s.apiKeys ∨ op.move k s = .completion

/-- The operation changes no user. -/
def SparesUsers (s : Store) (op : Operation) : Prop := (s.apply op).users = s.users

instance (k : String) (s : Store) (op : Operation) : Decidable (SparesKey k s op) :=
  inferInstanceAs (Decidable (_ ∨ _))

instance (s : Store) (op : Operation) : Decidable (SparesUsers s op) :=
  inferInstanceAs (Decidable (_ = _))

/-- The operation is a completion on the key that counts. -/
def usesKey (k : String) (s : Store) (op : Operation) : Bool :=
  op.move k s = .completion && op.counted

namespace Store

variable {s t : Store} {id k : String} {key c : ApiKey} {user : User} {op : Operation}

theorem Sound.keyAdmits (h : s.Sound) (hkey : key ∈ s.apiKeys) :
    keyAdmits key.id s.apiKeys key = true := by
  rw [Turnstile.keyAdmits]
  refine admits_self ?_ ?_
  · exact (h.records.apiKeys.rule key hkey).check
  · exact fun a ha hne => h.records.apiKeys.clash_eq_false beq_false_symm ha hkey hne

theorem Sound.userAdmits (h : s.Sound) (hu : user ∈ s.users) :
    userAdmits user.id s.users user = true := by
  have hrule := h.records.users.rule user hu
  rw [Turnstile.userAdmits]
  refine admits_self ?_ ?_
  · exact hrule.check
  · intro v hv hne
    rw [hrule.trimmed]
    exact h.records.users.clash_eq_false sameUsername_false_symm hv hu hne

theorem updateKey_spec (hfound : s.keyWithId? (Text.trim id) = some key)
    (patch : ApiKey → ApiKey) :
    s.accepts (.updateKey id patch) = keyAdmits (Text.trim id) s.apiKeys (patch key) ∧
      s.apply (.updateKey id patch) =
        if keyAdmits (Text.trim id) s.apiKeys (patch key) then
          s.withApiKeys (replaceFirst (·.id == Text.trim id) (patch key) s.apiKeys)
        else s := by
  rw [accepts, answer, apply]
  cases hcheck : checkCredential (patch key).credential with
  | error refusal =>
    rw [updateKey_of_refused hfound hcheck]
    simp [keyAdmits, admits, hcheck, Except.map, Except.isOk, Except.toBool]
  | ok _ =>
    rw [updateKey_of_checked hfound hcheck]
    split <;> rename_i htaken <;>
      simp [keyAdmits, admits, hcheck, htaken, Except.map, Except.isOk, Except.toBool]

theorem updateUser_spec (hfound : s.users.find? (·.id == Text.trim id) = some user)
    (patch : User → User) :
    s.accepts (.updateUser id patch) = userAdmits (Text.trim id) s.users (User.tidied patch user) ∧
      s.apply (.updateUser id patch) =
        if userAdmits (Text.trim id) s.users (User.tidied patch user) then
          s.withUsers (replaceFirst (·.id == Text.trim id) (User.tidied patch user) s.users)
        else s := by
  rw [accepts, answer, apply, updateUser]
  simp only [hfound]
  cases hcheck : checkUsername (Text.trim (patch user).username) with
  | error refusal =>
    simp [userAdmits, admits, hcheck, Except.map, Except.isOk, Except.toBool, User.tidied]
  | ok _ =>
    simp only
    split <;> rename_i htaken <;>
      simp [userAdmits, admits, hcheck, htaken, Except.map, Except.isOk, Except.toBool,
        User.tidied, Text.trim_trim]

theorem patches_updateKey {keys : List ApiKey} (hstored : keys.find? (·.id == k) = some key)
    (hid : Text.trim id = k) {patch : ApiKey → ApiKey} (hpatch : ∀ a, (patch a).id = a.id) :
    (keyCell keys k).Patches patch (.updateKey id patch) := by
  subst hid
  refine Cell.patches_ofList apiKeys withApiKeys (fun _ _ => rfl) (fun _ => rfl) hpatch hstored ?_
  exact fun t c hfound => updateKey_spec hfound patch

theorem patches_updateUser {users : List User} (hstored : users.find? (·.id == k) = some user)
    (hid : Text.trim id = k) {patch : User → User} (hpatch : ∀ u, (patch u).id = u.id) :
    (userCell users k).Patches (User.tidied patch) (.updateUser id patch) := by
  subst hid
  have hname (u : User) : (User.tidied patch u).id = u.id :=
    (User.id_tidied patch u).trans (hpatch u)
  refine Cell.patches_ofList Store.users withUsers (fun _ _ => rfl) (fun _ => rfl) hname hstored ?_
  exact fun t c hfound => updateUser_spec hfound patch

/-- A completion takes place on the one key with the id, whatever it was looked up by. -/
theorem apiKeys_of_completion (hids : (s.apiKeys.map ApiKey.id).Nodup)
    (hstored : s.apiKeys.find? (·.id == k) = some key) (hmove : op.move k s = .completion) :
    (s.apply op).apiKeys =
      replaceFirst (·.id == k) (if op.counted then key.recordUse else key) s.apiKeys := by
  obtain ⟨test, found, hfound, hid, happly⟩ := Operation.move_eq_completion hmove
  have hkey : key.id = k := Lookup.name_of_find? hstored
  have hsame : found = key :=
    List.inj_on_of_nodup_map hids (List.mem_of_find?_eq_some hfound)
      (List.mem_of_find?_eq_some hstored) (hid.trans hkey.symm)
  subst hsame
  have hplace (d : ApiKey) :
      replaceFirst test d s.apiKeys = replaceFirst (·.id == k) d s.apiKeys :=
    (replaceFirst_eq_map (f := fun _ => d) hids hfound).trans
      (replaceFirst_eq_map (f := fun _ => d) hids hstored).symm
  rw [happly, ← hplace]
  rfl

theorem holds_of_sparesKey {keys : List ApiKey} (hids : (keys.map ApiKey.id).Nodup)
    (hstored : keys.find? (·.id == k) = some key) (h : (keyCell keys k).holds t c)
    (hop : SparesKey k t op) :
    (keyCell keys k).holds (t.apply op) (if usesKey k t op then c.recordUse else c) := by
  by_cases hmove : op.move k t = .completion
  · have hfind : t.apiKeys.find? (·.id == k) = some c := by
      rw [h.1]
      exact find?_replaceFirst_self hstored h.2
    have hnodup : (t.apiKeys.map ApiKey.id).Nodup := by
      rw [h.1, map_replaceFirst hstored]
      · exact hids
      · exact h.2.trans (Lookup.name_of_find? hstored).symm
    have huses : usesKey k t op = op.counted := by
      rw [usesKey, decide_eq_true hmove, Bool.true_and]
    rw [huses]
    refine ⟨?_, by split <;> exact h.2⟩
    rw [apiKeys_of_completion hnodup hfind hmove, h.1, replaceFirst_replaceFirst h.2]
  · have huses : usesKey k t op = false := by
      rw [usesKey, decide_eq_false hmove, Bool.false_and]
    rw [huses]
    exact ⟨(hop.resolve_right hmove).trans h.1, h.2⟩

end Store
end Turnstile
