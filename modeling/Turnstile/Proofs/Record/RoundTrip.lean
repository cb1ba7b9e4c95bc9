import Turnstile.Record.Format
import Turnstile.Proofs.Json.Decoding
import Turnstile.Proofs.Time.RoundTrip

/-! The stored form of records: each kind of record is taken back by its decoder, member by member,
and so is a set of records from its whole text. The one thing a text cannot tell is a leap second
inside a minute from the second after it, and only a record set can carry one. -/

namespace Turnstile

open Json (Value Decoder)
open Json.Decoder (Takes Fills takes_text takes_bool takes_count64 takes_count32 takes_parsed
  takes_constant takes_list takes_record member_of_field)

theorem takes_moment (m : Moment) :
    Takes (Decoder.parsed Moment.read?) m (.str m.toUniversal) :=
  takes_parsed m.read?_toUniversal

theorem takes_timestamp (t : Timestamp) :
    Takes (Decoder.parsed Moment.read?) t.toMoment (.str t.toUniversal) :=
  takes_parsed t.read?_toUniversal

namespace User

theorem takes_role (role : Role) :
    Takes (Decoder.constant Role.ofLabel?) role (.str role.label) := by
  cases role <;> exact takes_constant (by decide)

theorem takes_toJson (u : User) : Takes decoder u u.toJson := by
  have hfills : Fills fields {} [("id", .str u.id), ("username", .str u.username),
      ("password_hash", .str u.passwordHash), ("role", .str u.role.label),
      ("disabled", .bool u.disabled), ("created_at", .str u.createdAt.toUniversal)]
      { id := some u.id, username := some u.username, passwordHash := some u.passwordHash,
        role := some u.role, disabled := some u.disabled, createdAt := some u.createdAt } :=
    ⟨_, member_of_field rfl rfl (takes_text _), _, member_of_field rfl rfl (takes_text _),
      _, member_of_field rfl rfl (takes_text _), _, member_of_field rfl rfl (takes_role _),
      _, member_of_field rfl rfl (takes_bool _), _, member_of_field rfl rfl (takes_moment _),
      rfl⟩
  exact takes_record hfills rfl

theorem counted_toJson (u : User) : u.toJson.Counted :=
  ⟨trivial, trivial, trivial, trivial, trivial, trivial, trivial⟩

end User

namespace ApiKey

theorem takes_toJson (k : ApiKey) : Takes decoder k k.toJson := by
  have hfills : Fills fields {} [("id", .str k.id), ("key", .str k.credential),
      ("label", .str k.label), ("user_id", .str k.userId), ("enabled", .bool k.enabled),
      ("total_limit", .nat k.totalLimit.toNat), ("used_count", .nat k.usedCount.toNat),
      ("concurrency_limit", .nat k.concurrencyLimit.toNat),
      ("compatibility_mode", .bool k.compatibilityMode),
      ("created_at", .str k.createdAt.toUniversal)]
      { id := some k.id, credential := some k.credential, label := some k.label,
        userId := some k.userId, enabled := some k.enabled, totalLimit := some k.totalLimit,
        usedCount := some k.usedCount, concurrencyLimit := some k.concurrencyLimit,
        compatibilityMode := some k.compatibilityMode, createdAt := some k.createdAt } :=
    ⟨_, member_of_field rfl rfl (takes_text _), _, member_of_field rfl rfl (takes_text _),
      _, member_of_field rfl rfl (takes_text _), _, member_of_field rfl rfl (takes_text _),
      _, member_of_field rfl rfl (takes_bool _), _, member_of_field rfl rfl (takes_count64 _),
      _, member_of_field rfl rfl (takes_count64 _), _, member_of_field rfl rfl (takes_count32 _),
      _, member_of_field rfl rfl (takes_bool _), _, member_of_field rfl rfl (takes_moment _),
      rfl⟩
  exact takes_record hfills rfl

theorem counted_toJson (k : ApiKey) : k.toJson.Counted :=
  ⟨trivial, trivial, trivial, trivial, trivial, ⟨_, rfl⟩, ⟨_, rfl⟩, ⟨_, rfl⟩, trivial, trivial,
    trivial⟩

end ApiKey

namespace RecordSet

/-- A version of zero is taken as the first. -/
def normalized (r : RecordSet) : RecordSet :=
  { r with version := if r.version = 0 then currentVersion else r.version }

theorem with_updatedAt_eq_iff {r : RecordSet} {t : Timestamp} :
    { r with updatedAt := t } = r ↔ t = r.updatedAt := by
  cases r
  simp

theorem takes_toJson (r : RecordSet) (now : Moment) :
    Takes (decoder now) { r.normalized with updatedAt := r.updatedAt.toMoment } r.toJson := by
  have hfills : Fills fields {} [("version", .nat r.version.toNat),
      ("updated_at", .str r.updatedAt.toUniversal), ("users", .arr (r.users.map User.toJson)),
      ("api_keys", .arr (r.apiKeys.map ApiKey.toJson))]
      { version := some r.version, updatedAt := some r.updatedAt.toMoment, users := some r.users,
        apiKeys := some r.apiKeys } :=
    ⟨_, member_of_field rfl rfl (takes_count32 _), _, member_of_field rfl rfl (takes_timestamp _),
      _, member_of_field rfl rfl (takes_list fun u _ => u.takes_toJson),
      _, member_of_field rfl rfl (takes_list fun k _ => k.takes_toJson), rfl⟩
  exact takes_record hfills rfl

theorem allItems_map {α : Type} {toValue : α → Value} {items : List α}
    (h : ∀ a ∈ items, (toValue a).Counted) : Value.Counted.allItems (items.map toValue) := by
  induction items with
  | nil => exact trivial
  | cons a items ih =>
    obtain ⟨hfirst, hitems⟩ := List.forall_mem_cons.mp h
    exact ⟨hfirst, ih hitems⟩

theorem counted_toJson (r : RecordSet) : r.toJson.Counted :=
  ⟨⟨_, rfl⟩, trivial, allItems_map fun u _ => u.counted_toJson,
    allItems_map fun k _ => k.counted_toJson, trivial⟩

/-- The text of a record set is read as the record set, at the moment that the text names. -/
theorem read?_encode_toText (r : RecordSet) (now : Moment) :
    read? now (Utf8.encode r.toText) =
      some { r.normalized with updatedAt := r.updatedAt.toMoment } := by
  have htakes := r.takes_toJson now []
  rw [List.append_nil] at htakes
  simp only [read?, Decoder.run, toText, Json.Token.ofBytes_pretty r.counted_toJson, htakes]
  rfl

theorem normalized_of_version {r : RecordSet} (h : 1 ≤ r.version) : r.normalized = r := by
  have hne : r.version ≠ 0 := by
    intro hzero
    rw [hzero] at h
    exact absurd h (by decide)
  rw [normalized, if_neg hne]

end RecordSet

end Turnstile
