import Turnstile.Proofs.Admission.Forecast
import Turnstile.Proofs.Service.Portal

/-! The usage report of the portal. It is about the calling key, or about the keys of its owner
where it has one. The owner is looked up without the blanks around it and stored with them, so the
report of a key lists the key itself exactly if there are none: otherwise it lists the keys of the
owner of that name without blanks, or no key at all. -/

namespace Turnstile

open Http (Request)

namespace Store

variable {s : Store} {k : ApiKey}

/-- Among the keys of its owner, a stored key is the one key with its id. -/
theorem Sound.filter_ownedBy (h : s.Sound) (hk : k ∈ s.apiKeys) :
    (s.ownedBy k.userId).filter (·.id == k.id) = [k] := by
  have honly : s.apiKeys.filter (·.id == k.id) = [k] := keysWithId_of_mem h.keyIds hk
  rw [ownedBy, List.filter_filter]
  simp only [Bool.and_comm (_ == k.id)]
  rw [← List.filter_filter, honly]
  exact List.filter_cons_of_pos (beq_self_eq_true k.userId)

/-- A key is not among those of another owner. -/
theorem Sound.not_mem_ids_ownedBy (h : s.Sound) (hk : k ∈ s.apiKeys) {userId : String}
    (hother : k.userId ≠ userId) : k.id ∉ (s.ownedBy userId).map ApiKey.id := by
  rw [List.mem_map]
  rintro ⟨a, ha, hid⟩
  obtain ⟨hmem, howner⟩ := List.mem_filter.mp ha
  obtain rfl : a = k := eq_of_keysWithId (keysWithId_of_mem h.keyIds hk) hmem hid
  exact hother (beq_iff_eq.mp howner)

end Store

namespace Portal

variable {s : Store} {k : ApiKey}

/-- What the report for a key lists. -/
def report (s : Store) (k : ApiKey) : List Usage := usageOf s (reported s k)

/-- The report lists the key itself once, as it is used now, and all that its owner owns. -/
structure ReportsCaller (s : Store) (k : ApiKey) : Prop where
  own : (report s k).filter (·.keyId == k.id) = [s.report k]
  owned : k.userId ≠ "" → report s k = (s.ownedBy k.userId).map s.report

theorem reported_eq (s : Store) (k : ApiKey) :
    reported s k =
      if k.userId = "" then [k]
      else if Text.trim k.userId = "" then []
      else s.ownedBy (Text.trim k.userId) := by
  simp only [reported, Store.keysOfUser_eq, String.isEmpty_iff]

theorem filter_usageOf (s : Store) (keys : List ApiKey) (id : String) :
    (usageOf s keys).filter (·.keyId == id) = usageOf s (keys.filter (·.id == id)) :=
  List.filter_map

theorem keyId_usageOf (s : Store) (keys : List ApiKey) :
    (usageOf s keys).map Usage.keyId = keys.map ApiKey.id :=
  List.map_map

theorem reportsCaller_of_trimmed (h : s.Sound) (hk : k ∈ s.apiKeys)
    (htrimmed : Text.trim k.userId = k.userId) : ReportsCaller s k := by
  by_cases hnobody : k.userId = ""
  · have hself : [k].filter (·.id == k.id) = [k] :=
      List.filter_cons_of_pos (beq_self_eq_true k.id)
    refine ⟨?_, fun hsome => absurd hnobody hsome⟩
    rw [report, reported_eq, if_pos hnobody, filter_usageOf, hself]
    rfl
  · have howned : reported s k = s.ownedBy k.userId := by
      rw [reported_eq, if_neg hnobody, htrimmed, if_neg hnobody]
    refine ⟨?_, fun _ => ?_⟩
    · rw [report, howned, filter_usageOf, h.filter_ownedBy hk]
      rfl
    · rw [report, howned]
      rfl

/-- The report of a key whose owner has blanks around it does not list the key. -/
theorem not_mem_report_of_padded (h : s.Sound) (hk : k ∈ s.apiKeys)
    (hpadded : Text.trim k.userId ≠ k.userId) : k.id ∉ (report s k).map Usage.keyId := by
  have hsome : k.userId ≠ "" := by
    intro hnobody
    rw [hnobody] at hpadded
    exact hpadded (by decide)
  rw [report, keyId_usageOf, reported_eq, if_neg hsome]
  split
  · simp
  · exact h.not_mem_ids_ownedBy hk (Ne.symm hpadded)

theorem ReportsCaller.mem (h : ReportsCaller s k) : k.id ∈ (report s k).map Usage.keyId := by
  have hlisted : s.report k ∈ (report s k).filter (·.keyId == k.id) := by
    rw [h.own]
    exact List.mem_singleton_self _
  exact List.mem_map_of_mem (List.mem_of_mem_filter hlisted)

theorem mem_report_iff (h : s.Sound) (hk : k ∈ s.apiKeys) :
    k.id ∈ (report s k).map Usage.keyId ↔ Text.trim k.userId = k.userId := by
  refine ⟨fun hlisted => ?_, fun htrimmed => (reportsCaller_of_trimmed h hk htrimmed).mem⟩
  by_contra hpadded
  exact not_mem_report_of_padded h hk hpadded hlisted

theorem reportsCaller_iff (h : s.Sound) (hk : k ∈ s.apiKeys) :
    ReportsCaller s k ↔ Text.trim k.userId = k.userId :=
  ⟨fun hreports => (mem_report_iff h hk).mp hreports.mem, reportsCaller_of_trimmed h hk⟩

end Portal

namespace Service

variable (service : Service) (draw : Draw) {r : Request} {w : World}

theorem response_usage (hmethod : r.method = "GET") (hpath : r.uri.path = "/portal/usage")
    {grant : Grant} (hgrant : w.store.checkAccess r.carrier = .ok grant) :
    (service.handle draw r w).1 = .json 200 (.obj [("usage",
      .arr ((Portal.report w.store grant.key).map Usage.view))]) := by
  have hasks : r.Asks .portalUsage [] := ⟨_, findRoute_usage hpath, by rw [hmethod]; rfl⟩
  rw [handle_of_asks hasks (by rw [hmethod]; decide)]
  change ((Portal.usage r).answer w).1 = _
  rw [Portal.answer_usage, hgrant]
  rfl

/-- In every run from an empty store, a key is told of its own use and of all keys of its owner if
its owner stands without blanks around it, and otherwise not of its own use. -/
theorem usage_reports_caller_iff (path : Option String) (now : Moment) {run : List Operation}
    (hload : ∀ op ∈ run, ∀ files now, op ≠ .load files now) (hids : ∀ op ∈ run, op.KeepsIds)
    (hfresh : ∀ past op, past ++ [op] <+: run →
      op.Fresh (Run.after Store.apply (.new path now) past))
    (hstore : w.store = Run.after Store.apply (.new path now) run)
    (hmethod : r.method = "GET") (hpath : r.uri.path = "/portal/usage") {grant : Grant}
    (hgrant : w.store.checkAccess r.carrier = .ok grant) :
    (service.handle draw r w).1 = .json 200 (.obj [("usage",
        .arr ((Portal.report w.store grant.key).map Usage.view))]) ∧
      (Portal.ReportsCaller w.store grant.key ↔
        Text.trim grant.key.userId = grant.key.userId) ∧
      (grant.key.id ∈ (Portal.report w.store grant.key).map Usage.keyId ↔
        Text.trim grant.key.userId = grant.key.userId) := by
  have hsound : w.store.Sound := by
    rw [hstore]
    exact Store.sound_of_not_load (Store.sound_new path now) hload hids hfresh
  have hkey := (Store.accepts_of_checkAccess hgrant).2.1
  exact ⟨response_usage service draw hmethod hpath hgrant,
    Portal.reportsCaller_iff hsound hkey, Portal.mem_report_iff hsound hkey⟩

/-- Two keys of this owner are stored, and the first one is in use. -/
def moveIn (owner : String) : List Operation :=
  [.upsertKey "key_9" .epoch { tenantKey with userId := owner, concurrencyLimit := 2 },
    .upsertKey "key_2" .epoch { ApiKey.fresh "tk_back" "back" .epoch with userId := owner },
    .beginRequest "tk_ada"]

def home (owner : String) : World where
  store := Run.after Store.apply (.new none .epoch) (moveIn owner)
  files := .empty

def homeGrant (owner : String) : Grant :=
  ⟨{ tenantKey with userId := owner, concurrencyLimit := 2 }, .apiKeyHeader⟩

/-- The caller is told of both keys. -/
theorem usage_reports_caller_home :
    (∀ op ∈ moveIn "usr_1", op.KeepsIds) ∧
      (home "usr_1").store.checkAccess houseUsage.carrier = .ok (homeGrant "usr_1") ∧
      (houseService.handle houseDraw houseUsage (home "usr_1")).1 = .json 200 (.obj [("usage",
        .arr ((Portal.report (home "usr_1").store (homeGrant "usr_1").key).map Usage.view))]) ∧
      Portal.ReportsCaller (home "usr_1").store (homeGrant "usr_1").key ∧
      (Portal.report (home "usr_1").store (homeGrant "usr_1").key).map
        (fun u => (u.keyId, u.inFlight)) = [("key_1", 1), ("key_2", 0)] := by
  have hload : ∀ op ∈ moveIn "usr_1", ∀ files now, op ≠ .load files now := by simp [moveIn]
  have hids : ∀ op ∈ moveIn "usr_1", op.KeepsIds := by simp [moveIn, Operation.KeepsIds]
  have hgrant : (home "usr_1").store.checkAccess houseUsage.carrier = .ok (homeGrant "usr_1") := by
    decide +kernel
  obtain ⟨hanswer, hreports, -⟩ := usage_reports_caller_iff houseService houseDraw none .epoch
    hload hids (Run.forall_event_iff.mp (by decide +kernel)) (w := home "usr_1") rfl
    (r := houseUsage) rfl rfl hgrant
  exact ⟨hids, hgrant, hanswer, hreports.mpr (by decide +kernel), by decide +kernel⟩

/-- A caller whose owner has blanks around it, or is blank, is told of no key at all. -/
theorem usage_hides_caller_padded :
    (∀ op ∈ moveIn " usr_1 " ++ moveIn " ", op.KeepsIds) ∧
      (home " usr_1 ").store.checkAccess houseUsage.carrier = .ok (homeGrant " usr_1 ") ∧
      (houseService.handle houseDraw houseUsage (home " usr_1 ")).1 =
        .json 200 (.obj [("usage", .arr [])]) ∧
      (home " ").store.checkAccess houseUsage.carrier = .ok (homeGrant " ") ∧
      (houseService.handle houseDraw houseUsage (home " ")).1 =
        .json 200 (.obj [("usage", .arr [])]) := by
  have hids : ∀ op ∈ moveIn " usr_1 " ++ moveIn " ", op.KeepsIds := by
    simp [moveIn, Operation.KeepsIds]
  have hpadded : (home " usr_1 ").store.checkAccess houseUsage.carrier =
      .ok (homeGrant " usr_1 ") := by decide +kernel
  have hblank : (home " ").store.checkAccess houseUsage.carrier = .ok (homeGrant " ") := by
    decide +kernel
  have hnone : Portal.report (home " usr_1 ").store (homeGrant " usr_1 ").key = [] ∧
      Portal.report (home " ").store (homeGrant " ").key = [] := by decide +kernel
  refine ⟨hids, hpadded, ?_, hblank, ?_⟩
  · rw [response_usage houseService houseDraw rfl rfl hpadded, hnone.1, List.map_nil]
  · rw [response_usage houseService houseDraw rfl rfl hblank, hnone.2, List.map_nil]

end Service
end Turnstile
