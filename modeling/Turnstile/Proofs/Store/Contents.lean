import Turnstile.Proofs.Store.Saving

/-! The records that a path holds: those of the file that it leads to, or none yet where nothing is.
The moment of the reading matters only to a file that names no moment. -/

namespace Turnstile

namespace Json.Decoder

variable {δ α : Type}

/-- A record is finished when all of it has been read. -/
theorem record_eq_bind (fields : List (Field δ)) (start : δ) (finish : δ → Option α)
    (tokens : List Token) :
    record fields start finish tokens =
      (record fields start some tokens).bind (record.complete finish) := by
  unfold record
  split
  · rfl
  · rename_i name rest
    cases member fields start name rest with
    | error fault => rfl
    | ok read =>
      change (membersFrom fields read.2.length read.1 read.2 >>= _) =
        Except.bind (membersFrom fields read.2.length read.1 read.2 >>= _) _
      cases membersFrom fields read.2.length read.1 read.2 <;> rfl
  · rfl
  · rename_i rest
    cases elementsFrom true fields start rest <;> rfl
  · rfl

theorem run_record {fields : List (Field δ)} {start : δ} {finish : δ → Option α}
    (bytes : List UInt8) :
    ((record fields start finish).run bytes).toOption =
      ((record fields start some).run bytes).toOption.bind finish := by
  unfold run
  rw [record_eq_bind]
  cases record fields start some (Token.ofBytes bytes) with
  | error fault => rfl
  | ok read =>
    obtain ⟨draft, rest⟩ := read
    simp only [Except.bind, record.complete]
    cases hfinish : finish draft <;> cases rest <;> simp [Except.toOption, hfinish]

end Json.Decoder

namespace RecordSet

variable {now : Moment} {bytes : List UInt8} {r : RecordSet}

/-- What the bytes say, field by field. -/
def Draft.ofBytes? (bytes : List UInt8) : Option Draft :=
  ((Json.Decoder.record fields {} some).run bytes).toOption

theorem read?_eq_bind (now : Moment) (bytes : List UInt8) :
    read? now bytes = (Draft.ofBytes? bytes).bind (Draft.finish now) :=
  Json.Decoder.run_record bytes

theorem one_le_version_of_read? (h : read? now bytes = some r) : 1 ≤ r.version := by
  rw [read?_eq_bind] at h
  obtain ⟨draft, -, hfinish⟩ := Option.bind_eq_some_iff.mp h
  cases hfinish
  dsimp only
  split
  · exact UInt32.le_refl 1
  · rename_i hversion
    rw [UInt32.le_iff_toNat_le]
    exact Nat.pos_of_ne_zero fun hzero => hversion (UInt32.toNat.inj hzero)

theorem read?_later (h : read? now bytes = some r) (later : Moment) :
    ∃ updatedAt, read? later bytes = some { r with updatedAt } := by
  rw [read?_eq_bind] at h
  obtain ⟨draft, hdraft, hfinish⟩ := Option.bind_eq_some_iff.mp h
  cases hfinish
  rw [read?_eq_bind, hdraft]
  exact ⟨_, rfl⟩

end RecordSet

namespace FileTree

variable {t : FileTree} {path : String} {now : Moment} {r : RecordSet}

/-- The records at a path, if they can be read. -/
def recordSet? (t : FileTree) (path : String) (now : Moment) : Option RecordSet :=
  match t.contents path with
  | .ok bytes => RecordSet.read? now bytes
  | .error .notFound => some (.empty now)
  | .error _ => none

theorem recordSet?_of_contents {bytes : List UInt8} (h : t.contents path = .ok bytes) :
    t.recordSet? path now = RecordSet.read? now bytes := by
  simp only [recordSet?, h]

theorem one_le_version_of_recordSet? (h : t.recordSet? path now = some r) : 1 ≤ r.version := by
  unfold recordSet? at h
  split at h
  · exact RecordSet.one_le_version_of_read? h
  · cases h
    exact UInt32.le_refl 1
  · cases h

theorem recordSet?_later (h : t.recordSet? path now = some r) (later : Moment) :
    ∃ updatedAt, t.recordSet? path later = some { r with updatedAt } := by
  unfold recordSet? at h ⊢
  split at h
  · exact RecordSet.read?_later h later
  · cases h
    exact ⟨later, rfl⟩
  · cases h

end FileTree

namespace Store

variable {s : Store} {path tag : String} {files after : FileTree} {now : Moment}

theorem recordSet?_of_load (hpath : s.path = some path) (h : (s.load files now).1 = .ok ()) :
    ∃ r, files.recordSet? path now = some r ∧ (s.load files now).2 = { s with records := r } := by
  unfold FileTree.recordSet?
  simp only [load, hpath] at h ⊢
  split at h
  · rename_i hcontents
    rw [hcontents]
    exact ⟨_, rfl, rfl⟩
  · cases h
  · rename_i bytes hcontents
    rw [hcontents]
    dsimp only
    split at h
    · rename_i r hread
      rw [hread]
      exact ⟨r, rfl, rfl⟩
    · cases h

end Store

end Turnstile
