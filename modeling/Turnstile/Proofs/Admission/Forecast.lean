import Turnstile.Service.View
import Turnstile.Proofs.Admission.Ceiling
import Turnstile.Proofs.Store.Retrieval
import Turnstile.Proofs.Store.Writers

/-! What a usage report says of the next request. The report and the admission work out the same
policy in two ways, one by what is left of the quota and of the slots, the other by comparing counts
with limits, and agree for all counts and limits: a request is admitted exactly if the report leaves
room for it, and is otherwise refused for the first of the two that is used up. Each completion that
counts takes one from what is left, until nothing is. -/

namespace Turnstile

namespace ApiKey

variable {k : ApiKey}

/-! ## What is left of the quota -/

theorem toNat_remaining (k : ApiKey) :
    k.remaining.map UInt64.toNat =
      if k.hasTotalLimit then some (k.totalLimit.toNat - k.usedCount.toNat) else none := by
  unfold remaining
  split
  · rw [Option.map_some, Option.some.injEq]
    split
    · rename_i hle
      exact UInt64.toNat_sub_of_le _ _ hle
    · rename_i hover
      rw [UInt64.not_le, UInt64.lt_iff_toNat_lt] at hover
      exact (Nat.sub_eq_zero_of_le hover.le).symm
  · rfl

theorem remaining_eq_zero_iff : k.remaining = some 0 ↔ k.exhausted = true := by
  have hinjective : Function.Injective (Option.map UInt64.toNat) :=
    Option.map_injective fun _ _ => UInt64.toNat_inj.mp
  have hzero : k.remaining = some 0 ↔ k.remaining.map UInt64.toNat = some 0 :=
    (hinjective.eq_iff' rfl).symm
  rw [hzero, toNat_remaining, exhausted, Bool.and_eq_true, decide_eq_true_iff,
    UInt64.le_iff_toNat_le]
  split <;> simp [*, Nat.sub_eq_zero_iff_le]

/-- A use takes one from what is left, also where the count is at its greatest and stays there. -/
theorem toNat_remaining_recordUse (k : ApiKey) :
    k.recordUse.remaining.map UInt64.toNat = k.remaining.map fun n => n.toNat - 1 := by
  have hlimit : k.recordUse.totalLimit = k.totalLimit := rfl
  have hbound := k.totalLimit.toNat_lt
  have hleft : k.remaining.map (fun n => n.toNat - 1) =
      (k.remaining.map UInt64.toNat).map (· - 1) := by
    rw [Option.map_map]
    rfl
  rw [hleft, toNat_remaining, toNat_remaining, usedCount_recordUse, hasTotalLimit, hlimit,
    ← hasTotalLimit]
  split
  · rw [Option.map_some, Option.some.injEq, greatestCount]
    omega
  · rfl

end ApiKey

namespace Store

variable {s : Store} {k : ApiKey} {op : Operation}

/-- What is reported of a key. -/
def report (s : Store) (k : ApiKey) : Usage := .of k (s.inFlightOf k.id)

/-- A key is presented by its credential. -/
theorem Sound.findKey?_credential (h : s.Sound) (hk : k ∈ s.apiKeys) :
    s.findKey? k.credential = some k :=
  h.findKey? hk (h.records.apiKeys.rule k hk).trimmed

/-- A completion by the credential of a key is one on the key. -/
theorem usesKey_endRequest (h : s.findKey? k.credential = some k) :
    usesKey k.id s (.endRequest k.credential true) = true := by
  rw [usesKey, Operation.counted, Bool.and_true, decide_eq_true_iff, Operation.move,
    endRequest_eq, h]
  exact if_pos rfl

/-- A completion on a key that counts leaves the key with one more use. -/
theorem Sound.keysWithId_of_use (h : s.Sound) (hk : k ∈ s.apiKeys)
    (hop : usesKey k.id s op = true) : (s.apply op).keysWithId k.id = [k.recordUse] := by
  rw [usesKey, Bool.and_eq_true, decide_eq_true_iff] at hop
  have hstored := keyWithId?_of_mem h.keyIds hk
  rw [keysWithId, apiKeys_of_completion h.keyIds hstored hop.1, if_pos hop.2]
  exact filter_replaceFirst_self _ (keysWithId_of_mem h.keyIds hk) hstored rfl

/-- The report of a key says what will become of the next request with its credential, and a use
takes one from what it says is left. -/
theorem report_foretells (h : s.Sound) (hk : k ∈ s.apiKeys) (henabled : k.enabled = true) :
    ((s.beginRequest k.credential).1 = .ok k ↔
      (s.report k).remaining ≠ some 0 ∧
        ∀ limit, (s.report k).ceiling = some limit → (s.report k).inFlight < limit) ∧
    ((s.beginRequest k.credential).1 = .error .quotaExceeded ↔
      (s.report k).remaining = some 0) ∧
    ((s.beginRequest k.credential).1 = .error .concurrencyExceeded ↔
      (s.report k).remaining ≠ some 0 ∧
        ∃ limit, (s.report k).ceiling = some limit ∧ limit ≤ (s.report k).inFlight) ∧
    usesKey k.id s (.endRequest k.credential true) = true ∧
    ∀ op, usesKey k.id s op = true →
      ∃ used, (s.apply op).keysWithId k.id = [used] ∧
        ((s.apply op).report used).remaining.map UInt64.toNat =
          (s.report k).remaining.map fun left => left.toNat - 1 := by
  have hfound := h.findKey?_credential hk
  have hremaining : (s.report k).remaining = some 0 ↔ k.exhausted = true :=
    ApiKey.remaining_eq_zero_iff
  have hceiling (limit : UInt32) : (s.report k).ceiling = some limit ↔
      k.hasConcurrencyLimit = true ∧ k.concurrencyLimit = limit := by
    simp only [report, Usage.of, ApiKey.ceiling]
    split <;> simp [*]
  have hcount : (s.report k).inFlight = s.inFlight.count k.id := rfl
  rw [beginRequest_answer hfound, Ne, hremaining, hcount]
  simp only [hceiling, henabled, Bool.true_eq_false, if_false]
  -- The answer and the report are now told by the same two tests.
  refine ⟨?_, ?_, ?_, usesKey_endRequest hfound, ?_⟩
  · cases hquota : k.exhausted <;> cases hlimit : k.hasConcurrencyLimit <;> simp
  · cases hquota : k.exhausted <;> cases hlimit : k.hasConcurrencyLimit <;> simp
    split <;> simp
  · cases hquota : k.exhausted <;> cases hlimit : k.hasConcurrencyLimit <;> simp
  · intro op hop
    exact ⟨k.recordUse, h.keysWithId_of_use hk hop, k.toNat_remaining_recordUse⟩

/-- A key with one request of its quota and one of its slots left, and the store that it is in. -/
def meterKey : ApiKey :=
  { ApiKey.fresh "tk_meter" "meter" .epoch with
    id := "key_1", totalLimit := 2, usedCount := 1, concurrencyLimit := 2 }

def metered : Store := { stocked [meterKey] with inFlight := [("key_1", 1)] }

/-- The next request is admitted, and once it has counted nothing is left. -/
theorem report_foretells_metered :
    metered.Sound ∧ meterKey ∈ metered.apiKeys ∧ meterKey.enabled = true ∧
      (metered.beginRequest "tk_meter").1 = .ok meterKey ∧
      usesKey "key_1" metered (.endRequestById "key_1" true) = true ∧
      ∃ used, (metered.apply (.endRequestById "key_1" true)).keysWithId "key_1" = [used] ∧
        ((metered.apply (.endRequestById "key_1" true)).report used).remaining.map UInt64.toNat =
          some 0 := by
  have hsound : metered.Sound := by decide +kernel
  have hstored : meterKey ∈ metered.apiKeys := List.mem_singleton_self meterKey
  have huses : usesKey "key_1" metered (.endRequestById "key_1" true) = true := by decide +kernel
  obtain ⟨hadmitted, -, -, -, hused⟩ := report_foretells hsound hstored rfl
  refine ⟨hsound, hstored, rfl, hadmitted.mpr ⟨by decide, ?_⟩, huses, hused _ huses⟩
  rintro limit hlimit
  cases hlimit
  decide

end Store
end Turnstile
