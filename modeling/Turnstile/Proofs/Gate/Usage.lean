import Turnstile.Proofs.Gate.Gateway
import Turnstile.Proofs.Store.Usage

/-! Usage at the gate. A key is used once for each request that was admitted on it and served, up to
the greatest count, in whatever order requests, changes of the key and resets take their turns. But
a request leaves by the trimmed id of its key, so one that was admitted on a key whose id has
blanks around it is counted on the key whose id has not. -/

namespace Turnstile.Gateway

/-- The turn serves a request that was admitted on the key. -/
def serves (k : String) (g : Gateway) : Turn → Bool
  | .finish i response _ =>
    (g.inside? i).any fun admitted => response.succeeded && admitted.keyId == k
  | _ => false

/-- The turn serves a request that was admitted on another key, whose id is this one once it is
trimmed. -/
def strays (k : String) (g : Gateway) : Turn → Bool
  | .finish i response _ =>
    (g.inside? i).any fun admitted =>
      response.succeeded && admitted.keyId != k && Text.trim admitted.keyId == k
  | _ => false

def servedIn (service : Service) (k : String) (g : Gateway) (stretch : List Turn) : Nat :=
  Run.tally (step service) (serves k) g stretch

def straysIn (service : Service) (k : String) (g : Gateway) (stretch : List Turn) : Nat :=
  Run.tally (step service) (strays k) g stretch

/-- The turn completes a request of the key, but not at the gate. -/
def bypasses (k : String) (g : Gateway) : Turn → Bool
  | .other op => op.move k g.world.store = .completion
  | _ => false

/-- One key is stored under the id in every state of the run, it is not replaced as a whole, and its
requests are completed at the gate alone. -/
structure Steady (service : Service) (k : String) (w : World) (run : List Turn) : Prop where
  storedOnce : ∀ past, past <+: run →
    ((after service w past).world.store.keysWithId k).length = 1
  keepsKey : ∀ op, .other op ∈ run → op.KeepsKey k
  gated : ∀ past turn, past ++ [turn] <+: run → bypasses k (after service w past) turn = false

variable {service : Service} {k : String} {w : World} {g : Gateway}
  {run past early late : List Turn} {turn : Turn}

/-! ## One turn -/

theorem usedOf_endRequestById {s : Store} {key : ApiKey} (h : s.keysWithId k = [key]) {id : String}
    {counted : Bool} (h' : ((s.apply (.endRequestById id counted)).keysWithId k).length = 1) :
    (s.apply (.endRequestById id counted)).usedOf k =
      min ApiKey.greatestCount (s.usedOf k + (counted && Text.trim id == k).toNat) := by
  have hle := s.usedOf_le k
  by_cases hid : Text.trim id = k
  · rw [Store.usedOf_endRequestById h hid, hid, beq_self_eq_true, Bool.and_true]
    cases counted with
    | true => rfl
    | false => exact (Nat.min_eq_right hle).symm
  · have hmove : (Operation.endRequestById id counted).move k s ≠ .completion :=
      mt (Store.move_endRequestById h id counted).mp hid
    rw [Store.usedOf_apply h h' trivial hmove Operation.noConfusion, beq_false_of_ne hid,
      Bool.and_false]
    exact (Nat.min_eq_right hle).symm

/-- A served request is counted as an own one or as a stray. -/
theorem toNat_trimmed (hk : Text.trim k = k) (id : String) (served : Bool) :
    (served && Text.trim id == k).toNat =
      (served && id == k).toNat + (served && id != k && Text.trim id == k).toNat := by
  by_cases hid : id = k
  · rw [hid, hk]
    cases served <;> simp
  · have hne : (id == k) = false := beq_false_of_ne hid
    have hne' : (id != k) = true := bne_iff_ne.mpr hid
    rw [hne, hne']
    cases served <;> simp

theorem usedOf_step (hk : Text.trim k = k) {key : ApiKey}
    (h : g.world.store.keysWithId k = [key])
    (h' : ((g.step service turn).world.store.keysWithId k).length = 1)
    (hkeeps : ∀ op, turn = .other op → op.KeepsKey k) (hgated : bypasses k g turn = false)
    (hreset : turn ≠ .other (.resetUsage k)) :
    (g.step service turn).world.store.usedOf k =
      min ApiKey.greatestCount (g.world.store.usedOf k + (serves k g turn).toNat +
        (strays k g turn).toNat) := by
  have stays : g.world.store.usedOf k =
      min ApiKey.greatestCount (g.world.store.usedOf k + false.toNat + false.toNat) :=
    (Nat.min_eq_right (g.world.store.usedOf_le k)).symm
  rw [store_step] at h' ⊢
  -- Requests touch the count when they leave, and only when they were served.
  cases turn with
  | arrive r => exact stays
  | enter i =>
    simp only [call?, serves, strays] at h' ⊢
    cases hi : g.checked? i with
    | none => exact stays
    | some grant =>
      rw [hi] at h'
      simp only [Option.map_some, Option.elim_some] at h' ⊢
      rw [Store.usedOf_apply h h' trivial (Operation.move_beginRequest_ne _)
        Operation.noConfusion]
      exact stays
  | finish i response draw =>
    simp only [call?, serves, strays] at h' ⊢
    cases hi : g.inside? i with
    | none => exact stays
    | some admitted =>
      rw [hi] at h'
      simp only [Option.map_some, Option.elim_some, Option.any_some] at h' ⊢
      rw [usedOf_endRequestById h h', toNat_trimmed hk, Nat.add_assoc]
  | cancel i =>
    simp only [call?, serves, strays] at h' ⊢
    cases hi : g.inside? i with
    | none => exact stays
    | some admitted =>
      rw [hi] at h'
      simp only [Option.map_some, Option.elim_some] at h' ⊢
      rw [usedOf_endRequestById h h', Bool.false_and]
      rfl
  | other op =>
    have hop : op ≠ .resetUsage k := fun hop => hreset (congrArg Turn.other hop)
    simp only [call?, Option.elim_some] at h' ⊢
    rw [Store.usedOf_apply h h' (hkeeps op rfl) (of_decide_eq_false hgated) hop]
    exact stays

theorem Steady.keysWithId (h : Steady service k w run) (hp : past <+: run) :
    ∃ key, (after service w past).world.store.keysWithId k = [key] :=
  List.length_eq_one_iff.mp (h.storedOnce past hp)

/-- Right after a reset the key is not used. -/
theorem usedOf_after_reset (h : Steady service k w run)
    (hp : past ++ [.other (.resetUsage k)] <+: run) :
    (after service w (past ++ [.other (.resetUsage k)])).world.store.usedOf k = 0 := by
  obtain ⟨key, hkey⟩ := h.keysWithId ((List.prefix_append past [_]).trans hp)
  rw [after_concat, store_step]
  exact Store.usedOf_resetUsage hkey

/-! ## A stretch without a reset -/

theorem usedOf_stretch (hk : Text.trim k = k) (h : Steady service k w run)
    (hp : early ++ late <+: run) (hreset : .other (.resetUsage k) ∉ late) :
    (after service w (early ++ late)).world.store.usedOf k =
      min ApiKey.greatestCount ((after service w early).world.store.usedOf k +
        servedIn service k (after service w early) late +
        straysIn service k (after service w early) late) := by
  induction late using List.reverseRecOn with
  | nil =>
    rw [List.append_nil]
    exact (Nat.min_eq_right ((after service w early).world.store.usedOf_le k)).symm
  | append_singleton late turn ih =>
    rw [← List.append_assoc] at hp ⊢
    have hpast := (List.prefix_append _ [turn]).trans hp
    have hbefore := ih hpast (fun hmem => hreset (List.mem_append_left _ hmem))
    have hturn : turn ≠ .other (.resetUsage k) := by
      rintro rfl
      exact hreset (List.mem_append_right late (List.mem_singleton_self _))
    have hkeeps : ∀ op, turn = .other op → op.KeepsKey k := by
      rintro op rfl
      exact h.keepsKey op (hp.subset (List.mem_append_right _ (List.mem_singleton_self _)))
    obtain ⟨key, hkey⟩ := h.keysWithId hpast
    have hafter := h.storedOnce _ hp
    rw [after_concat] at hafter ⊢
    have hserved : servedIn service k (after service w early) (late ++ [turn]) =
        servedIn service k (after service w early) late +
          (serves k (after service w (early ++ late)) turn).toNat :=
      Run.tally_after_concat (serves k) _ early late turn
    have hstrays : straysIn service k (after service w early) (late ++ [turn]) =
        straysIn service k (after service w early) late +
          (strays k (after service w (early ++ late)) turn).toNat :=
      Run.tally_after_concat (strays k) _ early late turn
    rw [usedOf_step hk hkey hafter hkeeps (h.gated _ turn hp) hturn, hbefore, hserved, hstrays]
    omega

/-- Every request that has left the gate was completed once, on the key it was admitted on, and none
is completed before. The used count is that at the start, or zero after a reset, and the requests
served since, up to the greatest count, exactly if no stray was served since or the greatest count
is reached without it. -/
theorem usage_iff (hk : Text.trim k = k) (h : Steady service k w run) :
    ∀ past, past <+: run →
      (∀ i admitted, (after service w past).visits[i]? = some (.inside admitted) →
        endedIds service i w past = []) ∧
      (∀ i admitted, (after service w past).visits[i]? = some (.left admitted) →
        endedIds service i w past = [admitted.keyId]) ∧
      ∀ early late base, early ++ late = past → .other (.resetUsage k) ∉ late →
        (early = [] ∧ base = w.store.usedOf k ∨
          (∃ before, early = before ++ [.other (.resetUsage k)]) ∧ base = 0) →
        (after service w past).world.store.usedOf k =
            min ApiKey.greatestCount (base + servedIn service k (after service w early) late +
              straysIn service k (after service w early) late) ∧
          ((after service w past).world.store.usedOf k =
              min ApiKey.greatestCount (base + servedIn service k (after service w early) late) ↔
            straysIn service k (after service w early) late = 0 ∨
              ApiKey.greatestCount ≤ base + servedIn service k (after service w early) late) := by
  intro past hp
  refine ⟨fun i admitted => endedIds_inside, fun i admitted => endedIds_left, ?_⟩
  rintro early late base rfl hreset hbase
  have hstart : (after service w early).world.store.usedOf k = base := by
    rcases hbase with ⟨rfl, rfl⟩ | ⟨⟨before, rfl⟩, rfl⟩
    · rfl
    · exact usedOf_after_reset h ((List.prefix_append _ late).trans hp)
  have hused := usedOf_stretch hk h hp hreset
  rw [hstart] at hused
  refine ⟨hused, ?_⟩
  rw [hused]
  omega

/-! ## Runs at a door -/

def doorKey : ApiKey :=
  { ApiKey.fresh "tk_door" "door" .epoch with id := "key_1", concurrencyLimit := 1 }

/-- A second key, whose id is that of the first once it is trimmed. -/
def sideKey : ApiKey := { doorKey with id := " key_1 ", credential := "tk_side" }

def door : World := ⟨.stocked [doorKey, sideKey], .empty⟩

def doorService : Service := ⟨⟨fun _ password => .ok password, fun hash word => hash == word⟩, true⟩

def presenting (credential : String) : Http.Request :=
  ⟨"GET", ⟨"/v1/access", none⟩, [⟨"x-api-key", Utf8.encode credential⟩], []⟩

def answered (i status : Nat) : Turn :=
  .finish i (.empty status) ⟨.epoch, "user_9", "key_9", "tk_9", [], "tag", "request"⟩

/-- The credential changes between the check and the admission of the second request, and the count
is reset while the third one is open. -/
def beforeReset : List Turn :=
  [.arrive (presenting "tk_door"), .enter 0, .arrive (presenting "tk_door"),
    .other (.updateKey "key_1" (KeyEdit.applyAll [.credential "tk_gate", .label "gate"])),
    .enter 1, answered 0 200, .arrive (presenting "tk_gate"), .enter 2]

def afterReset : List Turn :=
  [answered 2 204, .arrive (presenting "tk_gate"), .enter 3, .cancel 3, .cancel 3,
    .arrive (presenting "tk_gate"), .enter 4, answered 4 404]

def busyDoor : List Turn := beforeReset ++ [.other (.resetUsage "key_1")] ++ afterReset

theorem usage_busyDoor :
    Text.trim "key_1" = "key_1" ∧ Steady doorService "key_1" door busyDoor ∧
      endedIds doorService 3 door busyDoor = ["key_1"] ∧
      (after doorService door busyDoor).world.store.usedOf "key_1" = 1 := by
  have htrim : Text.trim "key_1" = "key_1" := by decide +kernel
  have hsteady : Steady doorService "key_1" door busyDoor := by
    refine ⟨Run.forall_prefix_iff.mp (by decide +kernel), ?_,
      Run.forall_event_iff.mp (by decide +kernel)⟩
    intro op hop
    simp only [busyDoor, beforeReset, afterReset, answered, List.cons_append, List.nil_append,
      List.mem_cons, reduceCtorEq, Turn.other.injEq, List.not_mem_nil, or_false, false_or] at hop
    rcases hop with rfl | rfl
    · exact fun _ key => ⟨_, by simp, rfl⟩
    · trivial
  obtain ⟨-, hleft, hused⟩ := usage_iff htrim hsteady busyDoor List.prefix_rfl
  refine ⟨htrim, hsteady, ?_, ?_⟩
  · have hid : (after doorService door busyDoor).leftId? 3 = some "key_1" := by decide +kernel
    obtain ⟨v, hv, hid⟩ := Option.bind_eq_some_iff.mp hid
    cases v with
    | left admitted =>
      rw [hleft 3 admitted hv, Option.some.inj hid]
    | _ => cases hid
  · have hreset : .other (.resetUsage "key_1") ∉ afterReset := by simp [afterReset, answered]
    have hcount := (hused (beforeReset ++ [.other (.resetUsage "key_1")]) afterReset 0 rfl hreset
      (.inr ⟨⟨beforeReset, rfl⟩, rfl⟩)).2.mpr (.inl (by decide +kernel))
    have hserved : servedIn doorService "key_1" (after doorService door
        (beforeReset ++ [.other (.resetUsage "key_1")])) afterReset = 1 := by
      decide +kernel
    rw [hcount, hserved]
    rfl

/-- A request on the second key is counted on the first one. -/
def sideDoor : List Turn := [.arrive (presenting "tk_side"), .enter 0, answered 0 200]

/-- No request was admitted on the first key, and the slot of the second one is not given back. -/
theorem usage_of_sideDoor :
    servedIn doorService "key_1" ⟨door, []⟩ sideDoor = 0 ∧
      (after doorService door sideDoor).world.store.usedOf "key_1" = 1 ∧
      (after doorService door sideDoor).world.store.usedOf " key_1 " = 0 ∧
      (after doorService door sideDoor).world.store.slots " key_1 " = 1 := by
  decide +kernel

end Turnstile.Gateway
