import Turnstile.Proofs.Files.Target
import Turnstile.Proofs.Record.RoundTrip
import Turnstile.Proofs.Store.Operation

/-! Saving and loading. What is loaded after a save that succeeded is what was saved. At every point
of a save, whether it goes through, fails or stops, a load would read the old file or the whole new
one, as long as the path led somewhere at the start. -/

namespace Turnstile.Store

variable {s t : Store} {path : String} {files after : FileTree} {now later : Moment}
  {tag : String}

/-- What a save of the records at that moment writes down. -/
def stamped (s : Store) (now : Moment) : RecordSet := { s.records with updatedAt := now }

/-- The replacement that a save carries out. -/
def replacement (s : Store) (path : String) (now : Moment) (tag : String) : Replacement :=
  ⟨path, s.payload now, tag⟩

@[simp] theorem replacement_target : (s.replacement path now tag).target = path := rfl

@[simp] theorem replacement_bytes :
    (s.replacement path now tag).bytes = s.payload now := by
  simp only [replacement]

theorem save_of_path (hpath : s.path = some path) (files : FileTree) (now : Moment)
    (tag : String) :
    (s.save files now tag).2 = ((s.replacement path now tag).run files).2 ∧
      ((s.save files now tag).1 = .ok () ↔
        ((s.replacement path now tag).run files).1 = .ok ()) := by
  simp only [save, hpath, replacement]
  split
  · rename_i after hrun
    simp [hrun]
  · rename_i e after hrun
    simp [hrun]
  · rename_i e after hrun
    simp [hrun]

theorem read?_payload (s : Store) (now later : Moment) :
    RecordSet.read? later (s.payload now) = some (s.stamped now).normalized := by
  rw [payload, ← stamped, RecordSet.read?_encode_toText, stamped, Timestamp.toMoment_coe]
  rfl

theorem load_of_contents (hpath : t.path = some path)
    (hcontents : files.contents path = .ok (s.payload now)) :
    t.load files later = (.ok (), { t with records := (s.stamped now).normalized }) := by
  simp only [load, hpath, hcontents, read?_payload s now later]

theorem contents_of_load_decode (hpath : t.path = some path)
    (h : (t.load files later).1 = .error (.decode path)) :
    ∃ bytes, files.contents path = .ok bytes := by
  simp only [load, hpath] at h
  split at h
  · cases h
  · cases h
  · exact ⟨_, by assumption⟩

theorem load_undecodable {bytes : List UInt8} (hpath : t.path = some path)
    (hcontents : files.contents path = .ok bytes) (hread : RecordSet.read? later bytes = none) :
    (t.load files later).1 = .error (.decode path) := by
  simp only [load, hpath, hcontents, hread]

theorem load_unreadable {e : FileError} (hpath : t.path = some path)
    (hcontents : files.contents path = .error e) (he : e ≠ .notFound) :
    (t.load files later).1 = .error (.io ("failed to read " ++ path ++ ": " ++ e.message)) := by
  simp only [load, hpath, hcontents]

/-- Loads tell trees apart only by what the path holds. -/
theorem load_congr (hpath : t.path = some path)
    (hcontents : after.contents path = files.contents path) :
    t.load after later = t.load files later := by
  simp only [load, hpath, hcontents]

/-! ## What was saved is loaded -/

/-- A record set is read from its text with all that it holds, last changed at the moment that the
text names. So it is read as it was exactly if it was last changed at a moment. What a successful
save left is loaded as it was. -/
theorem load_of_save :
    (∀ (r : RecordSet) (now : Moment), 1 ≤ r.version →
      RecordSet.read? now (Utf8.encode r.toText) =
          some { r with updatedAt := r.updatedAt.toMoment } ∧
        (RecordSet.read? now (Utf8.encode r.toText) = some r ↔ r.updatedAt.isMoment = true)) ∧
    ∀ (s t : Store) (files after : FileTree) (now later : Moment) (tag : String),
      1 ≤ s.records.version → s.save files now tag = (.ok (), after) → t.path = s.path →
        t.load after later =
          (.ok (), { t with records := { s.records with updatedAt := now } }) := by
  refine ⟨?_, ?_⟩
  · intro r now hversion
    rw [r.read?_encode_toText now, RecordSet.normalized_of_version hversion]
    refine ⟨rfl, ?_⟩
    rw [Option.some.injEq, RecordSet.with_updatedAt_eq_iff, Timestamp.toMoment_eq_iff]
  · intro s t files after now later tag hversion hsave hpath
    cases hsome : s.path with
    | none => simp [save, hsome] at hsave
    | some path =>
      obtain ⟨htree, hanswer⟩ := save_of_path hsome files now tag
      rw [hsave] at htree hanswer
      have hrun : (s.replacement path now tag).run files = (.ok (), after) :=
        Prod.ext (hanswer.mp rfl) htree.symm
      have hcontents := Replacement.contents_of_run hrun
      rw [replacement_target, replacement_bytes] at hcontents
      have hnormal : (s.stamped now).normalized = s.stamped now :=
        RecordSet.normalized_of_version hversion
      rw [load_of_contents (hpath.trans hsome) hcontents, hnormal, stamped]

/-- A quote, a backslash, a line feed, a control character and one past the basic plane. -/
def oddLabel : String := String.ofList ['"', '\\', '\n', Char.ofNat 1, Char.ofNat 0x1F600]

/-- A key made in a leap second before the year zero, with the greatest count there is. -/
def oddKey : ApiKey :=
  { ApiKey.fresh "kg-a" oddLabel ⟨⟨⟨-1, 6, 30, by decide⟩, 86399, 1500000000, by decide⟩, rfl⟩ with
    id := "key_1", usedCount := 18446744073709551615 }

def oddStore : Store :=
  { Store.new (some "data/keys.json") .epoch with records := ⟨1, .epoch, [], [oddKey]⟩ }

theorem oddStore_saved : ∃ after, oddStore.save .empty .epoch "0" = (.ok (), after) := by
  have hsaved : (oddStore.save .empty .epoch "0").1 = .ok () := by decide +kernel
  -- said of any answer, so that the tree of this one is not computed
  have hpair : ∀ answer : Except StoreError Unit × FileTree, answer.1 = .ok () →
      answer = (.ok (), answer.2) := fun answer h => Prod.ext h rfl
  exact ⟨_, hpair _ hsaved⟩

theorem load_of_save_oddStore :
    RecordSet.read? .epoch (Utf8.encode oddStore.records.toText) = some oddStore.records ∧
      ∃ after, oddStore.save .empty .epoch "0" = (.ok (), after) ∧
        ((Store.new oddStore.path .epoch).load after .epoch).2.apiKeys = [oddKey] := by
  obtain ⟨after, hafter⟩ := oddStore_saved
  have hload := load_of_save.2 oddStore (Store.new oddStore.path .epoch) .empty after .epoch .epoch
    "0" Nat.one_pos hafter rfl
  obtain ⟨-, hread⟩ := load_of_save.1 oddStore.records .epoch Nat.one_pos
  refine ⟨hread.mpr rfl, after, hafter, ?_⟩
  rw [hload]
  simp only [apiKeys, oddStore]

/-- Last changed in a leap second behind the thirtieth second of a minute. -/
def strayRecords : RecordSet :=
  ⟨1, ⟨⟨2016, 12, 31, by decide⟩, 86310, 1500000000, by decide⟩, [], []⟩

/-- What is read was last changed half a second into the next second. -/
theorem leap_lost_inside_minute :
    1 ≤ strayRecords.version ∧
      RecordSet.read? .epoch (Utf8.encode strayRecords.toText) =
        some ⟨1, ⟨⟨2016, 12, 31, by decide⟩, 86311, 500000000, by decide⟩, [], []⟩ ∧
      RecordSet.read? .epoch (Utf8.encode strayRecords.toText) ≠ some strayRecords := by
  rw [RecordSet.read?_encode_toText]
  refine ⟨by decide, rfl, by decide⟩

/-! ## Every point of a save -/

/-- What loads answer at some point of a save, against its start. -/
structure LoadsAlike (s : Store) (path : String) (now : Moment) (files after : FileTree) :
    Prop where
  /-- As at the start or with the new records, unless the path held nothing and goes up by `..` or
  has a name that is too long. -/
  answers : ∀ (t : Store) (later : Moment), t.path = some path →
    t.load after later = t.load files later ∨
      t.load after later = (.ok (), { t with records := (s.stamped now).normalized }) ∨
      files.contents path = .error .notFound ∧ (".." ∈ Path.names path ∨
        ∃ name ∈ Path.names path, FileTree.nameBound < name.utf8ByteSize)
  /-- A load that cannot decode the file could not at the start, or the path held nothing then and
  by going up leads to another file of the start. -/
  decodes : ∀ (t : Store) (later : Moment), t.path = some path →
    (t.load after later).1 = .error (.decode path) →
      (t.load files later).1 = .error (.decode path) ∨
      files.contents path = .error .notFound ∧ ".." ∈ Path.names path ∧
        ∃ bytes place mode, after.contents path = .ok bytes ∧
          files.file? place = some (bytes, mode)

/-- What holds at a point of a save. -/
structure SavePoint (s : Store) (path : String) (now : Moment) (tag : String)
    (files : FileTree) (phase : Replacement.Phase) (after : FileTree) : Prop where
  reads : (s.replacement path now tag).Reads files after
  loads : s.LoadsAlike path now files after
  directories : (s.replacement path now tag).Around files after
  failed : ∀ f, phase = .failed f → Replacement.SameFiles files after
  done : phase = .done → after.contents path = .ok (s.payload now) ∧
    (∀ later, RecordSet.read? later (s.payload now) = some (s.stamped now).normalized) ∧
    (s.replacement path now tag).Replaced files after ∧ (s.replacement path now tag).Unused after

theorem loadsAlike_of_reads (h : (s.replacement path now tag).Reads files after) :
    s.LoadsAlike path now files after := by
  cases h with
  | same h =>
    refine ⟨fun t later hpath => .inl (load_congr hpath h), fun t later hpath hdecode => .inl ?_⟩
    rwa [load_congr hpath h] at hdecode
  | new h =>
    rw [replacement_target, replacement_bytes] at h
    refine ⟨fun t later hpath => .inr (.inl (load_of_contents hpath h)), ?_⟩
    intro t later hpath hdecode
    rw [load_of_contents hpath h] at hdecode
    cases hdecode
  | long hbefore hlong h =>
    refine ⟨fun t later hpath => .inr (.inr ⟨hbefore, .inr hlong⟩), ?_⟩
    intro t later hpath hdecode
    obtain ⟨e, h⟩ := h
    obtain ⟨bytes, hbytes⟩ := contents_of_load_decode hpath hdecode
    rw [replacement_target, hbytes] at h
    cases h
  | up hbefore hup h =>
    refine ⟨fun t later hpath => .inr (.inr ⟨hbefore, .inl hup⟩), ?_⟩
    intro t later hpath hdecode
    obtain ⟨bytes, hbytes⟩ := contents_of_load_decode hpath hdecode
    obtain ⟨place, m, hfile⟩ := h bytes hbytes
    exact .inr ⟨hbefore, hup, bytes, place, m, hbytes, hfile⟩

/-- At every point of a save the path holds what it held or the new records. At the end only the
target has changed, or no file where the save failed; directories above it may be new. -/
theorem save_atomic (s : Store) (path : String) (files : FileTree) (now : Moment)
    (tag : String) (hpath : s.path = some path) (htag : '/' ∉ tag.toList)
    (hfiles : files.WellFormed) (hunused : (s.replacement path now tag).Unused files) :
    s.apply (.save files now tag) = s ∧
      (∀ after, s.save files now tag = (.ok (), after) →
        (s.replacement path now tag).Reaches files (.done, after)) ∧
      (∀ e after, s.save files now tag = (.error e, after) →
        ∃ f, (s.replacement path now tag).Reaches files (.failed f, after)) ∧
      ∀ phase after, (s.replacement path now tag).Reaches files (phase, after) →
        s.SavePoint path now tag files phase after := by
  obtain ⟨htree, hanswer⟩ := save_of_path hpath files now tag
  have hrun : (s.replacement path now tag).Reaches files
      (.ofAnswer ((s.replacement path now tag).run files).1,
        ((s.replacement path now tag).run files).2) := Replacement.reaches_run
  rw [← htree] at hrun
  refine ⟨rfl, ?_, ?_, ?_⟩
  · intro after hsave
    rw [hsave] at hanswer hrun
    rw [hanswer.mp rfl] at hrun
    exact hrun
  · intro e after hsave
    rw [hsave] at hanswer hrun
    cases hresult : ((s.replacement path now tag).run files).1 with
    | ok => exact absurd (hanswer.mpr hresult) nofun
    | error f =>
      rw [hresult] at hrun
      exact ⟨f, hrun⟩
  · intro phase after hreaches
    obtain ⟨haround, hholds⟩ := Replacement.holds_of_reaches htag hunused hfiles hreaches
    have hreads := hholds.reads htag hfiles haround
    refine ⟨hreads, loadsAlike_of_reads hreads, haround, ?_, ?_⟩
    · rintro f rfl
      exact hholds
    · rintro rfl
      have hcontents := hholds.contents
      rw [replacement_target, replacement_bytes] at hcontents
      exact ⟨hcontents, s.read?_payload now, hholds, hholds.unused hunused⟩

theorem save_atomic_oddStore :
    ∃ after, oddStore.save .empty .epoch "0" = (.ok (), after) ∧
      oddStore.SavePoint "data/keys.json" .epoch "0" .empty .done after := by
  obtain ⟨after, hafter⟩ := oddStore_saved
  obtain ⟨-, hdone, -, hpoints⟩ := save_atomic oddStore "data/keys.json" .empty .epoch "0" rfl
    (by decide) FileTree.wellFormed_empty Replacement.unused_empty
  exact ⟨after, hafter, hpoints _ _ (hdone after hafter)⟩

/-! ## Names that are nearly too long

The temporary file has a longer name than the target, so a save can fail when its directories have
been made. Where the path held nothing before, the load after such a save can fail as well. -/

theorem save_of_long (hpath : s.path = some path) (htag : '/' ∉ tag.toList)
    (hlong : FileTree.nameBound < (s.replacement path now tag).temporaryName.utf8ByteSize)
    (files : FileTree) :
    (∃ e, (s.save files now tag).1 = .error e) ∧
      (s.save files now tag).2 =
        (files.makeDirectories (s.replacement path now tag).directory).2 := by
  obtain ⟨htree, hanswer⟩ := save_of_path hpath files now tag
  obtain ⟨⟨f, hfails⟩, hmade⟩ := Replacement.run_of_long htag hlong files
  rw [htree, hmade]
  refine ⟨?_, rfl⟩
  cases hresult : (s.save files now tag).1 with
  | ok =>
    rw [hanswer.mp hresult] at hfails
    cases hfails
  | error e => exact ⟨e, rfl⟩

/-- A save that fails on a path that held nothing, and makes the next load fail. -/
structure BrokenBySave (s : Store) (path : String) (files : FileTree) (tag : String)
    (e : StoreError) : Prop where
  backed : s.path = some path
  wellFormed : files.WellFormed
  tagged : '/' ∉ tag.toList
  unused : (s.replacement path .epoch tag).Unused files
  missing : files.contents path = .error .notFound
  loads : (s.load files .epoch).1 = .ok ()
  saveFails : ∃ e, (s.save files .epoch tag).1 = .error e
  loadFails : (s.load (s.save files .epoch tag).2 .epoch).1 = .error e

theorem brokenBySave {e : StoreError} {directory : String} (hpath : s.path = some path)
    (hfiles : files.WellFormed) (htag : '/' ∉ tag.toList)
    (hunused : (s.replacement path .epoch tag).Unused files)
    (hbefore : files.contents path = .error .notFound)
    (hlong : FileTree.nameBound < (s.replacement path .epoch tag).temporaryName.utf8ByteSize)
    (hdirectory : (s.replacement path .epoch tag).directory = directory)
    (hafter : (s.load (files.makeDirectories directory).2 .epoch).1 = .error e) :
    s.BrokenBySave path files tag e := by
  obtain ⟨hfails, htree⟩ := save_of_long hpath htag hlong files
  have hload : (s.load files .epoch).1 = .ok () := by
    simp only [load, hpath, hbefore]
  rw [← hdirectory, ← htree] at hafter
  exact ⟨hpath, hfiles, htag, hunused, hbefore, hload, hfails, hafter⟩

def longName (n : Nat) : String := String.ofList (List.replicate n 'n')

def longPath (directory : String) (n : Nat) : String := directory ++ "/" ++ longName n

def longTag : String := String.ofList (List.replicate 32 '0')

def longStore (directory : String) (n : Nat) : Store :=
  { Store.new none .epoch with path := some (longPath directory n) }

section LongName

variable {directory : String} {n : Nat}

theorem path_longStore : (longStore directory n).path = some (longPath directory n) := rfl

theorem not_mem_longName : '/' ∉ (longName n).toList := by
  rw [longName, String.toList_ofList, List.mem_replicate]
  rintro ⟨-, h⟩
  cases h

theorem longName_ne {name : String} (h : name.length < n) : longName n ≠ name := by
  rintro rfl
  simp [longName] at h

theorem isName_longName (hn : 2 < n) : Path.isName (longName n) = true := by
  have hblank : longName n ≠ "" := longName_ne (Nat.zero_lt_of_lt hn)
  have hdot : longName n ≠ "." := longName_ne (Nat.lt_of_succ_lt hn)
  simp [Path.isName, hblank, hdot]

theorem pieces_longPath :
    Path.pieces (longPath directory n) = Path.pieces directory ++ [longName n] :=
  Path.pieces_below directory not_mem_longName

theorem toList_longPath :
    (longPath directory n).toList = directory.toList ++ '/' :: List.replicate n 'n' := by
  rw [longPath, longName, String.toList_append, String.toList_append, Path.toList_slash,
    String.toList_ofList, List.append_assoc, List.singleton_append]

theorem fileName?_longPath (hn : 2 < n) :
    Path.fileName? (longPath directory n) = some (longName n) :=
  Path.fileName?_below directory not_mem_longName (isName_longName hn) (longName_ne hn)

theorem directory_longPath (s : Store) (hn : 2 < n) (hdirectory : directory.isEmpty = false)
    (htrimmed : Path.trimmedPieces directory = Path.pieces directory) :
    (s.replacement (longPath directory n) now tag).directory = directory := by
  have hparent : Path.parent? (longPath directory n) = some directory :=
    Path.parent?_below not_mem_longName (isName_longName hn) htrimmed
  simp [Replacement.directory, hparent, hdirectory]

end LongName

/-- The first path leads to this file as soon as it leads anywhere. -/
def strayFiles : FileTree := FileTree.empty.set ["work", longName 220] (.file [123] 0o644)

theorem strayFiles_wellFormed : strayFiles.WellFormed := by
  refine FileTree.wellFormed_empty.set rfl ?_
  rw [FileTree.node?_empty (List.cons_ne_nil _ _)]
  simp

theorem strayFiles_unused :
    ((longStore "a/.." 220).replacement (longPath "a/.." 220) .epoch longTag).Unused
      strayFiles := by
  refine Replacement.unused_empty.set (List.cons_ne_nil _ _) ?_
  have hfile : Path.fileName? ((longStore "a/.." 220).replacement (longPath "a/.." 220) .epoch
      longTag).target = some (longName 220) := fileName?_longPath (by decide)
  simpa using Replacement.temporaryName_ne_of_fileName? hfile

/-- The first path goes up again from a directory that is missing; the second has too long a name in
one. -/
theorem load_broken_by_save :
    (longStore "a/.." 220).BrokenBySave (longPath "a/.." 220) strayFiles longTag
        (.decode (longPath "a/.." 220)) ∧
      ∃ message, (longStore "a" 256).BrokenBySave (longPath "a" 256) .empty longTag
        (.io message) := by
  have hstray : 2 < 220 := by decide
  have hdeep : 2 < 256 := by decide
  constructor
  · have hbefore : strayFiles.contents (longPath "a/.." 220) = .error .notFound := by
      simp only [FileTree.contents, FileTree.locate, FileTree.start, Path.isRooted,
        pieces_longPath, toList_longPath]
      decide +kernel
    have hafter : (strayFiles.makeDirectories "a/..").2.contents (longPath "a/.." 220) =
        .ok [123] := by
      simp only [FileTree.contents, FileTree.locate, FileTree.start, Path.isRooted,
        pieces_longPath, toList_longPath]
      decide +kernel
    refine brokenBySave path_longStore strayFiles_wellFormed (by decide) strayFiles_unused hbefore
      ?_ (directory_longPath _ hstray (by decide) (by decide +kernel))
      (load_undecodable path_longStore hafter (by decide +kernel))
    simp only [Replacement.temporaryName, replacement_target, fileName?_longPath hstray,
      String.utf8ByteSize_append]
    decide +kernel
  · have hbefore : FileTree.empty.contents (longPath "a" 256) = .error .notFound := by
      simp only [FileTree.contents, FileTree.locate, FileTree.start, Path.isRooted,
        pieces_longPath, toList_longPath]
      decide +kernel
    have hafter : (FileTree.empty.makeDirectories "a").2.contents (longPath "a" 256) =
        .error .nameTooLong := by
      simp only [FileTree.contents, FileTree.locate, FileTree.start, Path.isRooted,
        pieces_longPath, toList_longPath]
      decide +kernel
    refine ⟨_, brokenBySave path_longStore FileTree.wellFormed_empty (by decide)
      Replacement.unused_empty hbefore ?_
      (directory_longPath _ hdeep (by decide) (by decide +kernel))
      (load_unreadable path_longStore hafter (by decide))⟩
    simp only [Replacement.temporaryName, replacement_target, fileName?_longPath hdeep,
      String.utf8ByteSize_append]
    decide +kernel

end Turnstile.Store
