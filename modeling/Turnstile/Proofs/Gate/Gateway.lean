import Turnstile.Service.Gate
import Turnstile.Proofs.Run
import Turnstile.Proofs.Store.Operation

/-! Requests that pass the gate side by side. The access check of a request, its admission and its
end are turns of their own: between them other requests and operations from elsewhere take theirs.
A turn asks at most one operation of the store, and every request that leaves the gate has asked
for one completion, of the key it was admitted on. -/

namespace Turnstile

/-- How far a request has come. -/
inductive Visit where
  /-- It passed the access check and is not admitted yet. -/
  | checked (grant : Grant)
  | refused
  | inside (admitted : Admitted)
  | left (admitted : Admitted)

/-- The requests are kept in the order in which they came. -/
structure Gateway where
  world : World
  visits : List Visit

inductive Turn where
  | arrive (r : Http.Request)
  | enter (i : Nat)
  /-- The request is answered and leaves. -/
  | finish (i : Nat) (response : Http.Response) (draw : Draw)
  /-- The request leaves without an answer. -/
  | cancel (i : Nat)
  | other (op : Operation)

namespace Visit

def ofCheck : Except AccessError Grant → Visit
  | .ok grant => .checked grant
  | .error _ => .refused

def ofBegin (grant : Grant) : Except StoreError ApiKey → Visit
  | .ok key => .inside ⟨grant, key.id⟩
  | .error _ => .refused

def ofEnter : Except Http.Problem Admitted → Visit
  | .ok admitted => .inside admitted
  | .error _ => .refused

def checked? : Visit → Option Grant
  | .checked grant => some grant
  | _ => none

def inside? : Visit → Option Admitted
  | .inside admitted => some admitted
  | _ => none

/-- The key that the request has left. -/
def leftId? : Visit → Option String
  | .left admitted => some admitted.keyId
  | _ => none

end Visit

namespace Gateway

def checked? (g : Gateway) (i : Nat) : Option Grant := g.visits[i]?.bind Visit.checked?

def inside? (g : Gateway) (i : Nat) : Option Admitted := g.visits[i]?.bind Visit.inside?

/-- A turn of a request that is not in its place changes nothing. -/
def step (service : Service) (g : Gateway) : Turn → Gateway
  | .arrive r => { g with visits := g.visits ++ [.ofCheck (g.world.store.checkAccess r.carrier)] }
  | .enter i =>
    match g.checked? i with
    | some grant =>
      let (answer, store) := g.world.store.beginRequest grant.principal
      ⟨{ g.world with store }, g.visits.set i (.ofBegin grant answer)⟩
    | none => g
  | .finish i response draw =>
    match g.inside? i with
    | some admitted =>
      ⟨Gate.complete service draw admitted response.succeeded g.world,
        g.visits.set i (.left admitted)⟩
    | none => g
  | .cancel i =>
    match g.inside? i with
    | some admitted => ⟨Gate.drop admitted g.world, g.visits.set i (.left admitted)⟩
    | none => g
  | .other op => { g with world := { g.world with store := g.world.store.apply op } }

/-- What a run makes of a world in which no request has come yet. -/
def after (service : Service) (w : World) (run : List Turn) : Gateway :=
  Run.after (step service) ⟨w, []⟩ run

variable {service : Service} {g : Gateway} {w : World}

theorem after_concat {past : List Turn} {turn : Turn} :
    after service w (past ++ [turn]) = (after service w past).step service turn :=
  Run.after_concat past turn

/-- A request that is not held up between its check and its admission enters as at the gate. -/
theorem step_enter_arrive (r : Http.Request) :
    (g.step service (.arrive r)).step service (.enter g.visits.length) =
      ⟨(Gate.enter r g.world).2, g.visits ++ [.ofEnter (Gate.enter r g.world).1]⟩ := by
  have hlast (v : Visit) : (g.visits ++ [v])[g.visits.length]? = some v := by simp
  unfold Gate.enter
  cases hcheck : g.world.store.checkAccess r.carrier with
  | error e =>
    simp only [step, hcheck, Visit.ofCheck, checked?, hlast, Option.bind_some, Visit.checked?]
    rfl
  | ok grant =>
    simp only [step, hcheck, Visit.ofCheck, checked?, hlast, Option.bind_some, Visit.checked?]
    cases hbegin : g.world.store.beginRequest grant.principal with
    | mk answer store =>
      cases answer with
      | ok key => simp [Visit.ofBegin, Visit.ofEnter]
      | error e => simp [Visit.ofBegin, Visit.ofEnter]

/-! ## What a turn asks of the store -/

/-- The operation that a turn asks for, and the request that it asks for. -/
def call? (g : Gateway) : Turn → Option (Option Nat × Operation)
  | .arrive _ => none
  | .enter i => (g.checked? i).map fun grant => (some i, .beginRequest grant.principal)
  | .finish i response _ => (g.inside? i).map fun admitted =>
    (some i, .endRequestById admitted.keyId response.succeeded)
  | .cancel i => (g.inside? i).map fun admitted => (some i, .endRequestById admitted.keyId false)
  | .other op => some (none, op)

theorem store_complete (draw : Draw) (admitted : Admitted) (served : Bool) :
    (Gate.complete service draw admitted served w).store =
      w.store.apply (.endRequestById admitted.keyId served) := by
  have hpersist (v : World) : (v.persist draw).2.store = v.store := by
    unfold World.persist
    split <;> rfl
  unfold Gate.complete
  rw [Store.apply]
  split
  · rename_i he
    rw [he]
  · rename_i he
    rw [he]
    dsimp only
    split
    · exact hpersist _
    · rfl

/-- The store changes by what is asked of it and by nothing else. -/
theorem store_step (turn : Turn) :
    (g.step service turn).world.store =
      (g.call? turn).elim g.world.store fun call => g.world.store.apply call.2 := by
  cases turn with
  | arrive r => rfl
  | enter i =>
    simp only [step, call?]
    cases g.checked? i with
    | none => rfl
    | some grant => simp only [Option.map_some, Option.elim_some, Store.apply]
  | finish i response draw =>
    simp only [step, call?]
    cases g.inside? i with
    | none => rfl
    | some admitted =>
      simp only [Option.map_some, Option.elim_some]
      exact store_complete draw admitted response.succeeded
  | cancel i =>
    simp only [step, call?]
    cases g.inside? i with
    | none => rfl
    | some admitted => simp only [Option.map_some, Option.elim_some, Store.apply, Gate.drop]
  | other op => simp only [step, call?, Option.elim_some]

/-! ## Completions -/

/-- The key id on which the turn completes the request with this place. -/
def endedId? (i : Nat) (g : Gateway) (turn : Turn) : Option String :=
  match g.call? turn with
  | some (some j, .endRequestById id _) => if j = i then some id else none
  | _ => none

/-- The key ids on which a run completes the request with this place, in their order. -/
def endedIds (service : Service) (i : Nat) (w : World) (run : List Turn) : List String :=
  Run.collect (step service) (endedId? i) ⟨w, []⟩ run

def leftId? (g : Gateway) (i : Nat) : Option String := g.visits[i]?.bind Visit.leftId?

theorem visits_of_checked? {i : Nat} {grant : Grant} (h : g.checked? i = some grant) :
    g.visits[i]? = some (.checked grant) := by
  obtain ⟨v, hv, hgrant⟩ := Option.bind_eq_some_iff.mp h
  rw [hv]
  cases v <;> cases hgrant
  rfl

theorem visits_of_inside? {i : Nat} {admitted : Admitted} (h : g.inside? i = some admitted) :
    g.visits[i]? = some (.inside admitted) := by
  obtain ⟨v, hv, hadmitted⟩ := Option.bind_eq_some_iff.mp h
  rw [hv]
  cases v <;> cases hadmitted
  rfl

theorem leftId?_append {v : Visit} (hv : v.leftId? = none) (i : Nat) :
    leftId? ⟨w, g.visits ++ [v]⟩ i = g.leftId? i := by
  unfold leftId?
  rw [List.getElem?_append]
  by_cases hi : i < g.visits.length
  · rw [if_pos hi]
  · rw [if_neg hi, List.getElem?_eq_none (Nat.le_of_not_lt hi)]
    cases i - g.visits.length with
    | zero => exact hv
    | succ n => rfl

/-- A request that had not left is now at its new place. -/
theorem leftId?_set {v v' : Visit} {i : Nat} (hv : g.visits[i]? = some v) (hnot : v.leftId? = none)
    (j : Nat) : (leftId? ⟨w, g.visits.set i v'⟩ j).toList =
      (g.leftId? j).toList ++ (if i = j then v'.leftId? else none).toList := by
  unfold leftId?
  rw [List.getElem?_set]
  by_cases hij : i = j
  · subst hij
    obtain ⟨hlt, -⟩ := List.getElem?_eq_some_iff.mp hv
    rw [if_pos rfl, if_pos hlt, if_pos rfl, hv, Option.bind_some, Option.bind_some, hnot]
    rfl
  · rw [if_neg hij, if_neg hij]
    exact (List.append_nil _).symm

/-- A request is among those that left a key once it has asked for its completion. -/
theorem leftId?_step (i : Nat) (turn : Turn) :
    ((g.step service turn).leftId? i).toList =
      (g.leftId? i).toList ++ (g.endedId? i turn).toList := by
  have stays : (g.leftId? i).toList = (g.leftId? i).toList ++ (none : Option String).toList :=
    (List.append_nil _).symm
  cases turn with
  | arrive r =>
    simp only [step, endedId?, call?]
    rw [leftId?_append]
    · exact stays
    · cases g.world.store.checkAccess r.carrier <;> rfl
  | enter j =>
    simp only [step, endedId?, call?]
    cases hj : g.checked? j with
    | none => exact stays
    | some grant =>
      simp only [Option.map_some]
      rw [leftId?_set (visits_of_checked? hj) rfl]
      have hnew : (Visit.ofBegin grant (g.world.store.beginRequest grant.principal).1).leftId? =
          none := by
        cases (g.world.store.beginRequest grant.principal).1 <;> rfl
      rw [hnew, ite_self]
  | finish j response draw =>
    simp only [step, endedId?, call?]
    cases hj : g.inside? j with
    | none => exact stays
    | some admitted => exact leftId?_set (visits_of_inside? hj) rfl i
  | cancel j =>
    simp only [step, endedId?, call?]
    cases hj : g.inside? j with
    | none => exact stays
    | some admitted => exact leftId?_set (visits_of_inside? hj) rfl i
  | other op => exact stays

/-- A request has asked for one completion if it has left, of the key it left, and for none
before. -/
theorem endedIds_eq (service : Service) (i : Nat) (w : World) (run : List Turn) :
    endedIds service i w run = ((after service w run).leftId? i).toList := by
  induction run using List.reverseRecOn with
  | nil => rfl
  | append_singleton past turn ih =>
    rw [after_concat, leftId?_step, ← ih]
    exact Run.collect_concat _ _ _ _

theorem endedIds_inside {run : List Turn} {i : Nat} {admitted : Admitted}
    (h : (after service w run).visits[i]? = some (.inside admitted)) :
    endedIds service i w run = [] := by
  rw [endedIds_eq, leftId?, h]
  rfl

theorem endedIds_left {run : List Turn} {i : Nat} {admitted : Admitted}
    (h : (after service w run).visits[i]? = some (.left admitted)) :
    endedIds service i w run = [admitted.keyId] := by
  rw [endedIds_eq, leftId?, h]
  rfl

end Gateway
end Turnstile
