import Mathlib.Data.Option.Basic
import Turnstile.Command.Run
import Turnstile.Proofs.Run
import Turnstile.Proofs.Store.Contents
import Turnstile.Proofs.Store.Users

/-! Commands and the data file. A command that fails leaves every file as it was, and so does one
that only looks. One that adds a user or a key leaves the records that were there, in their order,
and the new one behind them. -/

namespace Turnstile

/-- A record that a command adds. -/
inductive Added where
  | user (u : User)
  | key (k : ApiKey)
deriving DecidableEq

namespace Added

def user? : Added → Option User
  | user u => some u
  | key _ => none

def key? : Added → Option ApiKey
  | user _ => none
  | key k => some k

/-- What is printed of it. -/
def text : Added → String
  | user u => Command.userLine u
  | key k => k.credential ++ "\n"

end Added

namespace RecordSet

/-- One record more, behind the others, at that moment. -/
def extended (r : RecordSet) (now : Moment) : Added → RecordSet
  | .user u => { r with updatedAt := now, users := r.users ++ [u] }
  | .key k => { r with updatedAt := now, apiKeys := r.apiKeys ++ [k] }

section Extended

variable (r : RecordSet) (now : Moment) (added : Added)

@[simp] theorem version_extended : (r.extended now added).version = r.version := by
  cases added <;> rfl

@[simp] theorem users_extended :
    (r.extended now added).users = r.users ++ added.user?.toList := by
  cases added
  · rfl
  · exact (List.append_nil r.users).symm

@[simp] theorem apiKeys_extended :
    (r.extended now added).apiKeys = r.apiKeys ++ added.key?.toList := by
  cases added
  · exact (List.append_nil r.apiKeys).symm
  · rfl

end Extended

/-- The id of the owner that is asked for: a name wins over an id, and a key of which no owner is
asked for has none. -/
inductive Owner (r : RecordSet) : Option String → String → Prop
  | nobody : Owner r none ""
  | named {asked : String} {u : User}
      (hname : r.users.find? (fun v => sameUsername v.username (Text.trim asked)) = some u) :
      Owner r (some asked) u.id
  | identified {asked : String} {u : User}
      (hname : ∀ v ∈ r.users, sameUsername v.username (Text.trim asked) = false)
      (hid : r.users.find? (·.id == Text.trim asked) = some u) : Owner r (some asked) u.id

end RecordSet

/-! ## Records before they are saved -/

namespace Store

variable {s t : Store} {freshId : String} {now : Moment}

theorem upsertKey_of_new {given k : ApiKey} (hnew : given.id = "")
    (h : s.upsertKey freshId now given = (.ok k, t)) :
    k = { given with id := freshId, createdAt := now } ∧
      t = s.withApiKeys (s.apiKeys ++ [k]) := by
  have hisNew : given.isNew = true := String.isEmpty_iff.mpr hnew
  unfold upsertKey at h
  split at h
  · cases h
  · split at h
    · cases h
    · cases h
      exact ⟨rfl, rfl⟩

end Store

/-- Where the data file is. -/
def Surroundings.dataPath (s : Surroundings) (c : Config) : String :=
  Store.normalPath (c.dataFile s.environment)

theorem Config.of_openStore {c : Config} {s : Surroundings} {files : FileTree} {hasher : Hasher}
    {store : Store} (h : c.openStore s files = .ok (hasher, store)) :
    c.hasher = .ok hasher ∧ store.path = some (s.dataPath c) ∧
      files.recordSet? (s.dataPath c) s.draw.now = some store.records := by
  obtain ⟨made, hmade, hopen⟩ := FileTree.bind_eq_ok h
  split at hopen
  · rename_i loaded hload
    cases hopen
    have hpath : (Store.new (some (c.dataFile s.environment)) s.draw.now).path =
        some (s.dataPath c) := rfl
    obtain ⟨r, hrecords, hstore⟩ := Store.recordSet?_of_load hpath (congrArg Prod.fst hload)
    rw [hload] at hstore
    dsimp only at hstore
    subst hstore
    exact ⟨hmade, hpath, hrecords⟩
  · cases hopen

namespace Command

variable {c : Config} {s : Surroundings} {files after : FileTree} {command : Command}
  {added : Added} {store : Store} {fault : RunFault} {printed : String}

def isAddition : Command → Bool
  | addUser _ | addKey _ => true
  | serve | hashPassword _ | listKeys => false

/-- The record that the command asks for, made for a record set. -/
inductive Requests (c : Config) (s : Surroundings) (r : RecordSet) : Command → Added → Prop
  | user {a : UserAddition} {password hash : String} {hasher : Hasher}
      (hpassword : s.secret a.password = .ok password) (hhasher : c.hasher = .ok hasher)
      (hhash : hasher.hash s.draw.salt password = .ok hash) :
      Requests c s r (.addUser a) (.user
        { id := s.draw.userId, username := Text.trim a.username, passwordHash := hash,
          role := a.role, disabled := false, createdAt := s.draw.now })
  | key {a : KeyAddition} {userId : String} (howner : r.Owner a.owner userId) :
      Requests c s r (.addKey a) (.key
        { id := s.draw.keyId, credential := a.credential.getD s.draw.credential, label := a.label,
          userId, enabled := !a.disabled, totalLimit := a.totalLimit, usedCount := 0,
          concurrencyLimit := a.concurrencyLimit, compatibilityMode := a.compatibilityMode,
          createdAt := s.draw.now })

/-- The record that an addition makes and the store that it then saves. -/
def change (c : Config) (s : Surroundings) (files : FileTree) :
    Command → Except RunFault (Added × Store)
  | addUser a => (withUser c s a files).map fun made => (.user made.1, made.2)
  | addKey a => (withKey c s a files).map fun made => (.key made.1, made.2)
  | serve | hashPassword _ | listKeys => .error .settings

theorem run_of_addition (h : command.isAddition = true) :
    command.run c s files =
      match command.change c s files with
      | .ok (added, store) => store.saveAndPrint s.draw added.text files
      | .error fault => (.error fault, files) := by
  cases command with
  | addUser a => simp only [run, change]; cases withUser c s a files <;> rfl
  | addKey a => simp only [run, change]; cases withKey c s a files <;> rfl
  | _ => cases h

theorem files_of_not_addition (h : command.isAddition = false) :
    (command.run c s files).2 = files := by
  cases command with
  | serve | hashPassword => rfl
  | listKeys => simp only [run]; split <;> rfl
  | _ => cases h

theorem mapError_eq_ok {ε ε' α : Type} {x : Except ε α} {f : ε → ε'} {a : α}
    (h : x.mapError f = .ok a) : x = .ok a := by
  cases x with
  | error e => cases h
  | ok b => exact congrArg Except.ok (Except.ok.inj h)

theorem map_eq_ok {ε α β : Type} {x : Except ε α} {f : α → β} {b : β}
    (h : x.map f = .ok b) : ∃ a, x = .ok a ∧ f a = b := by
  cases x with
  | error e => cases h
  | ok a => exact ⟨a, rfl, Except.ok.inj h⟩

theorem owner_of_ownerId {asked : Option String} {userId : String}
    (h : ownerId store asked = .ok userId) : store.records.Owner asked userId := by
  unfold ownerId at h
  split at h
  · cases h
    exact .nobody
  · rename_i name
    split at h
    · rename_i u hfound
      cases h
      rcases (Option.orElse_eq_some _ _ _).mp hfound with hnamed | ⟨hunnamed, hidentified⟩
      · exact .named (Store.findUserByName?_eq_some_iff.mp hnamed).2
      · obtain ⟨hfilled, hid⟩ := Store.findUser?_eq_some_iff.mp hidentified
        exact .identified (Store.not_sameUsername_of_findUserByName? hunnamed hfilled) hid
    · cases h

theorem of_withUser {a : UserAddition} {u : User} (h : withUser c s a files = .ok (u, store)) :
    ∃ r, files.recordSet? (s.dataPath c) s.draw.now = some r ∧
      Requests c s r (.addUser a) (.user u) ∧ store.path = some (s.dataPath c) ∧
      store.stamped s.draw.now = r.extended s.draw.now (.user u) := by
  obtain ⟨password, hpassword, h⟩ := FileTree.bind_eq_ok h
  obtain ⟨⟨hasher, opened⟩, hopen, h⟩ := FileTree.bind_eq_ok h
  obtain ⟨hhasher, hpath, hrecords⟩ := Config.of_openStore (mapError_eq_ok hopen)
  obtain ⟨hash, hhash, h⟩ := FileTree.bind_eq_ok h
  dsimp only at h
  generalize hupsert : Store.upsertUser _ s.draw.userId s.draw.now _ = outcome at h
  obtain ⟨answer, changed⟩ := outcome
  obtain ⟨stored, hstored, h⟩ := FileTree.bind_eq_ok h
  cases h
  have hanswer : answer = .ok u := mapError_eq_ok hstored
  rw [hanswer] at hupsert
  obtain ⟨rfl, -, -, rfl⟩ := Store.upsertUser_of_new rfl hupsert
  exact ⟨opened.records, hrecords, .user hpassword hhasher (mapError_eq_ok hhash), hpath, rfl⟩

theorem of_withKey {a : KeyAddition} {k : ApiKey} (h : withKey c s a files = .ok (k, store)) :
    ∃ r, files.recordSet? (s.dataPath c) s.draw.now = some r ∧
      Requests c s r (.addKey a) (.key k) ∧ store.path = some (s.dataPath c) ∧
      store.stamped s.draw.now = r.extended s.draw.now (.key k) := by
  obtain ⟨⟨hasher, opened⟩, hopen, h⟩ := FileTree.bind_eq_ok h
  obtain ⟨hhasher, hpath, hrecords⟩ := Config.of_openStore (mapError_eq_ok hopen)
  obtain ⟨userId, howner, h⟩ := FileTree.bind_eq_ok h
  dsimp only at h
  generalize hupsert : Store.upsertKey _ s.draw.keyId s.draw.now _ = outcome at h
  obtain ⟨answer, changed⟩ := outcome
  obtain ⟨stored, hstored, h⟩ := FileTree.bind_eq_ok h
  cases h
  have hanswer : answer = .ok k := mapError_eq_ok hstored
  rw [hanswer] at hupsert
  obtain ⟨rfl, rfl⟩ := Store.upsertKey_of_new rfl hupsert
  exact ⟨opened.records, hrecords, .key (owner_of_ownerId howner), hpath, rfl⟩

/-- What an addition saves: the records that were there, and the one that was asked for. -/
theorem of_change (h : command.change c s files = .ok (added, store)) :
    ∃ r, files.recordSet? (s.dataPath c) s.draw.now = some r ∧ Requests c s r command added ∧
      store.path = some (s.dataPath c) ∧
      store.stamped s.draw.now = r.extended s.draw.now added := by
  cases command with
  | addUser a =>
    obtain ⟨⟨u, saved⟩, hmade, h⟩ := map_eq_ok h
    cases h
    exact of_withUser hmade
  | addKey a =>
    obtain ⟨⟨k, saved⟩, hmade, h⟩ := map_eq_ok h
    cases h
    exact of_withKey hmade
  | _ => cases h

end Command

/-! ## Saving them -/

namespace Store

variable {s : Store} {draw : Draw} {path : String} {files : FileTree}

/-- What a command's save leaves. -/
structure Saved (s : Store) (path : String) (now : Moment) (tag : String)
    (files : FileTree) (result : CommandResult) : Prop where
  wellFormed : result.2.WellFormed
  failed : ∀ fault, result.1 = .error fault → Replacement.SameFiles files result.2
  done : ∀ text, result.1 = .ok text → result.2.contents path = .ok (s.payload now) ∧
    (s.replacement path now tag).Replaced files result.2

theorem saved_saveAndPrint (hpath : s.path = some path) (htag : '/' ∉ draw.tag.toList)
    (hfiles : files.WellFormed) (hunused : (s.replacement path draw.now draw.tag).Unused files)
    (text : String) : s.Saved path draw.now draw.tag files (s.saveAndPrint draw text files) := by
  obtain ⟨-, hdone, hfailed, hpoints⟩ :=
    save_atomic s path files draw.now draw.tag hpath htag hfiles hunused
  unfold saveAndPrint
  split
  · rename_i after hsave
    have hpoint := hpoints _ _ (hdone after hsave)
    obtain ⟨hcontents, -, hreplaced, -⟩ := hpoint.done rfl
    exact ⟨hpoint.directories.wellFormed, nofun, fun _ _ => ⟨hcontents, hreplaced⟩⟩
  · rename_i e after hsave
    obtain ⟨f, hreaches⟩ := hfailed e after hsave
    have hpoint := hpoints _ _ hreaches
    exact ⟨hpoint.directories.wellFormed, fun _ _ => hpoint.failed f rfl, nofun⟩

end Store

/-! ## Calls -/

/-- One run of the program. -/
structure Call where
  words : List String
  surroundings : Surroundings

namespace Call

variable {call : Call} {files : FileTree} {command : Command} {c : Config}

def answer (call : Call) (files : FileTree) : CommandResult :=
  CommandLine.run call.words call.surroundings files

/-- The command that is run and its configuration, if the words and the settings can be read. -/
def command? (call : Call) (files : FileTree) : Option (Command × Config) :=
  (CommandLine.read call.words).toOption.bind fun line =>
    (Config.load files line.config call.surroundings.environment).map (line.command, ·)

/-- The record that an addition has made when it comes to save. -/
def added? (call : Call) (files : FileTree) : Option Added :=
  (call.command? files).bind fun (command, c) =>
    (command.change c call.surroundings files).toOption.map (·.1)

theorem answer_cases (call : Call) (files : FileTree) :
    (call.command? files = none ∧ ∃ fault, call.answer files = (.error fault, files)) ∨
      ∃ command c, call.command? files = some (command, c) ∧
        call.answer files = command.run c call.surroundings files := by
  unfold command? answer CommandLine.run
  cases hline : CommandLine.read call.words with
  | error fault => exact .inl ⟨rfl, _, rfl⟩
  | ok line =>
    cases hload : Config.load files line.config call.surroundings.environment with
    | none =>
      left
      exact ⟨by simp [Except.toOption, hload], .settings, by simp [hload]⟩
    | some c =>
      right
      exact ⟨line.command, c, by simp [Except.toOption, hload], by simp [hload]⟩

/-- No file has the name of the temporary file of a save. -/
structure FreshTag (call : Call) (files : FileTree) : Prop where
  plain : '/' ∉ call.surroundings.draw.tag.toList
  unused : ∀ command c, call.command? files = some (command, c) →
    Replacement.Unused ⟨call.surroundings.dataPath c, [], call.surroundings.draw.tag⟩ files

/-- What becomes of the files in a call. -/
structure AllOrNothing (call : Call) (files : FileTree) : Prop where
  wellFormed : (call.answer files).2.WellFormed
  failed : ∀ fault, (call.answer files).1 = .error fault →
    Replacement.SameFiles files (call.answer files).2
  looked : ∀ command c, call.command? files = some (command, c) → command.isAddition = false →
    (call.answer files).2 = files
  added : ∀ command c text, call.command? files = some (command, c) → command.isAddition = true →
    (call.answer files).1 = .ok text → ∃ r added,
      files.recordSet? (call.surroundings.dataPath c) call.surroundings.draw.now = some r ∧
      command.Requests c call.surroundings r added ∧ call.added? files = some added ∧
      (∀ later, (call.answer files).2.recordSet? (call.surroundings.dataPath c) later =
        some (r.extended call.surroundings.draw.now added)) ∧
      ∃ g, (call.answer files).2.locate (call.surroundings.dataPath c) = .ok g ∧
        ∀ place, place ≠ g.place → (call.answer files).2.file? place = files.file? place

theorem allOrNothing_of_same (hfiles : files.WellFormed) (hsame : (call.answer files).2 = files)
    (hno : ∀ command c, call.command? files = some (command, c) → command.isAddition = true →
      ∃ fault, (call.answer files).1 = .error fault) : call.AllOrNothing files := by
  refine ⟨hsame.symm ▸ hfiles, fun _ _ _ => by rw [hsame], fun _ _ _ _ => hsame, ?_⟩
  intro command c text hcommand hadds hanswer
  obtain ⟨fault, hfault⟩ := hno command c hcommand hadds
  rw [hfault] at hanswer
  cases hanswer

theorem allOrNothing_of_addition (hfiles : files.WellFormed) (htag : call.FreshTag files)
    (hcommand : call.command? files = some (command, c)) (hadds : command.isAddition = true)
    (h : call.answer files = command.run c call.surroundings files) :
    call.AllOrNothing files := by
  rw [Command.run_of_addition hadds] at h
  cases hchange : command.change c call.surroundings files with
  | error fault =>
    rw [hchange] at h
    exact allOrNothing_of_same hfiles (congrArg Prod.snd h) fun _ _ _ _ =>
      ⟨fault, congrArg Prod.fst h⟩
  | ok changed =>
    obtain ⟨added, store⟩ := changed
    rw [hchange] at h
    dsimp only at h
    obtain ⟨r, hbefore, hrequests, hpath, hstamped⟩ := Command.of_change hchange
    have hadded : call.added? files = some added := by
      simp [added?, hcommand, hchange, Except.toOption]
    have hunused : (store.replacement (call.surroundings.dataPath c) call.surroundings.draw.now
        call.surroundings.draw.tag).Unused files :=
      (htag.unused command c hcommand).congr rfl rfl
    obtain ⟨hwellFormed, hfailed, hdone⟩ :=
      Store.saved_saveAndPrint hpath htag.plain hfiles hunused added.text
    rw [← h] at hwellFormed hfailed hdone
    refine ⟨hwellFormed, hfailed, ?_, ?_⟩
    · intro command' c' hcommand' hlook
      cases hcommand.symm.trans hcommand'
      rw [hadds] at hlook
      cases hlook
    · intro command' c' text hcommand' _ hanswer
      cases hcommand.symm.trans hcommand'
      obtain ⟨hcontents, g, hlocate, -, -, hothers⟩ := hdone text hanswer
      refine ⟨r, added, hbefore, hrequests, hadded, fun later => ?_, g, hlocate, ?_⟩
      · have hversion : 1 ≤ (store.stamped call.surroundings.draw.now).version := by
          rw [hstamped, RecordSet.version_extended]
          exact FileTree.one_le_version_of_recordSet? hbefore
        rw [FileTree.recordSet?_of_contents hcontents, Store.read?_payload,
          RecordSet.normalized_of_version hversion, hstamped]
      · intro place hplace
        rw [hothers, if_neg hplace]

theorem allOrNothing (hfiles : files.WellFormed) (htag : call.FreshTag files) :
    call.AllOrNothing files := by
  rcases call.answer_cases files with ⟨hno, fault, hanswer⟩ | ⟨command, c, hcommand, hanswer⟩
  · exact allOrNothing_of_same hfiles (congrArg Prod.snd hanswer) fun _ _ _ _ =>
      ⟨fault, congrArg Prod.fst hanswer⟩
  · cases hadds : command.isAddition with
    | true => exact allOrNothing_of_addition hfiles htag hcommand hadds hanswer
    | false =>
      refine allOrNothing_of_same hfiles ?_ ?_
      · rw [hanswer, Command.files_of_not_addition hadds]
      · intro command' c' hcommand' hadds'
        cases hcommand.symm.trans hcommand'
        rw [hadds] at hadds'
        cases hadds'

/-! ## Calls one after the other -/

def step (files : FileTree) (call : Call) : FileTree := (call.answer files).2

/-- The call adds a record to the file at the path. -/
def AddsAt (call : Call) (path : String) (files : FileTree) : Prop :=
  (∃ text, (call.answer files).1 = .ok text) ∧ ∃ command c,
    call.command? files = some (command, c) ∧ command.isAddition = true ∧
      call.surroundings.dataPath c = path

/-- The records after calls that added these to the ones before. -/
structure Grown (path : String) (r : RecordSet) (added : List Added) (files : FileTree) : Prop where
  wellFormed : files.WellFormed
  records : ∀ later, ∃ r', files.recordSet? path later = some r' ∧ r'.version = r.version ∧
    r'.users = r.users ++ added.filterMap Added.user? ∧
    r'.apiKeys = r.apiKeys ++ added.filterMap Added.key?

section Run

variable {path : String} {now : Moment} {r : RecordSet} {added : List Added} {run : List Call}

theorem grown_nil (hfiles : files.WellFormed) (h : files.recordSet? path now = some r) :
    Grown path r [] files := by
  refine ⟨hfiles, fun later => ?_⟩
  obtain ⟨updatedAt, hlater⟩ := FileTree.recordSet?_later h later
  exact ⟨_, hlater, rfl, (List.append_nil _).symm, (List.append_nil _).symm⟩

theorem Grown.step (h : Grown path r added files) (htag : call.FreshTag files)
    (hadds : call.AddsAt path files) :
    ∃ last, call.added? files = some last ∧
      Grown path r (added ++ [last]) (step files call) := by
  obtain ⟨⟨text, hanswer⟩, command, c, hcommand, hadd, rfl⟩ := hadds
  have hcall := allOrNothing h.wellFormed htag
  obtain ⟨r₁, last, hbefore, -, hlast, hafter, -⟩ :=
    hcall.added command c text hcommand hadd hanswer
  obtain ⟨r₂, hbefore', hversion, husers, hkeys⟩ := h.records call.surroundings.draw.now
  cases hbefore.symm.trans hbefore'
  refine ⟨last, hlast, hcall.wellFormed, fun later => ⟨_, hafter later, ?_, ?_, ?_⟩⟩
  · rw [RecordSet.version_extended, hversion]
  · rw [RecordSet.users_extended, husers, List.filterMap_append, List.append_assoc]
    rfl
  · rw [RecordSet.apiKeys_extended, hkeys, List.filterMap_append, List.append_assoc]
    rfl

theorem grown_after (hfiles : files.WellFormed) (hstart : files.recordSet? path now = some r)
    (hadds : ∀ past call, past ++ [call] <+: run →
      call.FreshTag (Run.after step files past) ∧ call.AddsAt path (Run.after step files past)) :
    ∀ past, past <+: run →
      (Run.collect step (fun files call => call.added? files) files past).length = past.length ∧
      Grown path r (Run.collect step (fun files call => call.added? files) files past)
        (Run.after step files past) := by
  refine Run.prefix_induction ⟨rfl, grown_nil hfiles hstart⟩ ?_
  intro past call hp ⟨hlength, hgrown⟩
  obtain ⟨htag, hadd⟩ := hadds past call hp
  obtain ⟨last, hlast, hstep⟩ := hgrown.step htag hadd
  rw [Run.collect_concat, Run.after_concat, hlast]
  refine ⟨?_, hstep⟩
  rw [List.length_append, List.length_append, hlength]
  rfl

end Run

/-- A call that fails changes no file, one that looks changes nothing, and one that adds a record
changes the data file alone, which then holds the records from before and the new one. So after any
number of additions the file holds just what was added, in its order. -/
theorem additions_exact :
    (∀ (call : Call) (files : FileTree), files.WellFormed → call.FreshTag files →
      call.AllOrNothing files) ∧
    ∀ (path : String) (files : FileTree) (run : List Call) (now : Moment) (r : RecordSet),
      files.WellFormed → files.recordSet? path now = some r →
      (∀ past call, past ++ [call] <+: run →
        call.FreshTag (Run.after step files past) ∧ call.AddsAt path (Run.after step files past)) →
      (Run.collect step (fun files call => call.added? files) files run).length = run.length ∧
        Grown path r (Run.collect step (fun files call => call.added? files) files run)
          (Run.after step files run) :=
  ⟨fun _ _ hfiles htag => allOrNothing hfiles htag,
    fun _ _ run _ _ hfiles hstart hadds => grown_after hfiles hstart hadds run (List.prefix_refl _)⟩

/-- A data file with one key that was written by hand, without a version. -/
def keyFiles : FileTree :=
  FileTree.empty.set ["work", "keygate-data.json"]
    (.file (Utf8.encode "\x7b\"api_keys\":[\x7b\"key\":\"kg-a\"\x7d]\x7d") 0o644)

def keyPath : String := "./keygate-data.json"

def keyRecords : RecordSet :=
  { RecordSet.empty .epoch with
    apiKeys := [{ ApiKey.fresh "kg-a" "" .epoch with enabled := false }] }

def keyCall : Call where
  words := ["key", "add", "--label", "front", "--total-limit=5"]
  surroundings := ⟨[], [], ⟨.epoch, "usr_1", "key_1", "kg-b", [], "0", ""⟩⟩

theorem freshTag_keyCall : keyCall.FreshTag keyFiles := by
  have hplain : '/' ∉ keyCall.surroundings.draw.tag.toList := by decide
  have hcommand : keyCall.command? keyFiles =
      some (.addKey ⟨"front", none, 5, 0, false, false, none⟩, {}) := by decide +kernel
  refine ⟨hplain, fun command c hfound => ?_⟩
  cases hcommand.symm.trans hfound
  exact Replacement.unused_empty.set (List.cons_ne_nil _ _) (by decide +kernel)

theorem additions_exact_keyCall :
    keyCall.AllOrNothing keyFiles ∧
      Grown keyPath keyRecords
        [.key { ApiKey.fresh "kg-b" "front" .epoch with id := "key_1", totalLimit := 5 }]
        (step keyFiles keyCall) := by
  have hfiles : keyFiles.WellFormed := by
    refine FileTree.wellFormed_empty.set rfl ?_
    rw [FileTree.node?_empty (List.cons_ne_nil _ _)]
    simp
  have hstart : keyFiles.recordSet? keyPath .epoch = some keyRecords := by decide +kernel
  have hadds : keyCall.AddsAt keyPath keyFiles :=
    ⟨⟨"kg-b\n", by decide +kernel⟩, .addKey ⟨"front", none, 5, 0, false, false, none⟩, {},
      by decide +kernel, rfl, by decide +kernel⟩
  have hrun : ∀ past call, past ++ [call] <+: [keyCall] →
      call.FreshTag (Run.after step keyFiles past) ∧
        call.AddsAt keyPath (Run.after step keyFiles past) := by
    intro past call hp
    obtain ⟨-, hcall⟩ := Run.concat_prefix_iff.mp hp
    cases past with
    | nil =>
      cases hcall
      exact ⟨freshTag_keyCall, hadds⟩
    | cons first rest => simp at hcall
  have hadded : keyCall.added? keyFiles =
      some (.key { ApiKey.fresh "kg-b" "front" .epoch with id := "key_1", totalLimit := 5 }) := by
    decide +kernel
  obtain ⟨hcalls, hruns⟩ := additions_exact
  refine ⟨hcalls keyCall keyFiles hfiles freshTag_keyCall, ?_⟩
  have hgrown := (hruns keyPath keyFiles [keyCall] .epoch keyRecords hfiles hstart hrun).2
  rw [Run.collect, hadded] at hgrown
  exact hgrown

end Call

end Turnstile
