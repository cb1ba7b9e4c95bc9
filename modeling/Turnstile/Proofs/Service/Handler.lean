import Turnstile.Proofs.Service.Plan

/-! Handlers as plans. The parts that handlers are made of each put a few turns in front of what
follows them, and turn some requests down; a handler that is made of them has a plan of any shape
that takes this in. -/

namespace Turnstile

open Http (Problem Request Response)

/-- Carried out without a break, some plan of that shape does what the handler does. -/
def Handler.Planned (draw : Draw) (shape : Plan → Prop) (h : Handler Response) : Prop :=
  ∃ plan, shape plan ∧ ∀ w, h.answer w = plan.run draw w

/-! ## Statuses of problems -/

theorem Http.Problem.status_ofStore (e : StoreError) : 400 ≤ (Problem.ofStore e).status := by
  cases e <;> exact Nat.le_of_ble_eq_true rfl

theorem Http.Problem.status_ofAccess (e : AccessError) : 400 ≤ (Problem.ofAccess e).status := by
  cases e <;> decide

theorem Http.Problem.status_readJson {α : Type} {r : Request} {d : Json.Decoder α} {p : Problem}
    (h : r.readJson d = .error p) : 400 ≤ p.status := by
  unfold Request.readJson at h
  split at h
  · cases h
    decide
  · split at h
    · cases h
      decide
    · cases hread : d.run r.body with
      | ok a =>
        rw [hread] at h
        cases h
      | error fault =>
        rw [hread] at h
        cases h
        cases fault <;> decide

theorem Admin.status_explain (id : String) (e : StoreError) :
    400 ≤ (Admin.explain id e).status := by
  unfold Admin.explain
  split
  · exact Nat.le_of_ble_eq_true rfl
  · exact Problem.status_ofStore e

namespace Handler

variable {α β : Type} {draw : Draw} {shape : Plan → Prop}

theorem bind_apply (h : Handler α) (rest : α → Handler β) (w : World) :
    (h >>= rest) w =
      match h w with
      | (.ok a, w) => rest a w
      | (.error problem, w) => (.error problem, w) := by
  change StateT.bind h (ExceptT.bindCont rest) w = _
  unfold StateT.bind
  rcases h w with ⟨a | a, w'⟩ <;> rfl

theorem answer_bind (h : Handler α) (rest : α → Handler Response) (w : World) :
    (h >>= rest).answer w =
      match h w with
      | (.ok a, w) => (rest a).answer w
      | (.error problem, w) => (problem.toResponse, w) := by
  rw [answer, bind_apply]
  rcases h w with ⟨a | a, w'⟩ <;> rfl

theorem requireKey_apply (r : Request) (w : World) : requireKey r w =
    ((w.store.checkAccess r.carrier).mapError Problem.ofAccess, w) := by
  rw [requireKey, bind_apply]
  simp only [ask]
  cases w.store.checkAccess r.carrier <;> rfl

theorem planned_answer {response : Response} (h : shape (.answer response)) :
    (pure response : Handler Response).Planned draw shape :=
  ⟨.answer response, h, fun _ => rfl⟩

section Open

variable (hopen : Plan.Open shape)

include hopen

theorem planned_fail {p : Problem} (h : 400 ≤ p.status) :
    (fail p : Handler Response).Planned draw shape :=
  ⟨.answer p.toResponse, hopen.decline _ h, fun _ => rfl⟩

theorem planned_fail_bind {p : Problem} (h : 400 ≤ p.status) (rest : α → Handler Response) :
    (fail p >>= rest).Planned draw shape :=
  ⟨.answer p.toResponse, hopen.decline _ h, fun w => answer_bind (fail p) rest w⟩

theorem planned_ask {question : Store → α} {rest : α → Handler Response}
    (h : ∀ s, (rest (question s)).Planned draw shape) :
    (ask question >>= rest).Planned draw shape := by
  choose next hshape hrun using h
  exact ⟨.ask next, hopen.ask next hshape, fun w =>
    (answer_bind (ask question) rest w).trans (hrun w.store w)⟩

theorem planned_jsonBody {d : Json.Decoder α} {r : Request} {rest : α → Handler Response}
    (h : ∀ a, (rest a).Planned draw shape) : (jsonBody d r >>= rest).Planned draw shape := by
  cases hread : r.readJson d with
  | error p =>
    refine ⟨.answer p.toResponse, hopen.decline _ (Problem.status_readJson hread), fun w => ?_⟩
    rw [answer_bind, jsonBody, hread]
    rfl
  | ok a =>
    obtain ⟨plan, hshape, hrun⟩ := h a
    refine ⟨plan, hshape, fun w => ?_⟩
    rw [answer_bind, jsonBody, hread]
    exact hrun w

end Open

/-! ## Operations -/

/-- What follows an operation whose failure is explained and whose result is passed on. -/
theorem exists_next {op : Operation} {f : Store → Outcome α} {wrap : α → Reply}
    (hruns : op.Runs f wrap) (explain : StoreError → Problem) {rest : α → Handler Response}
    (h : ∀ a, (rest a).Planned draw shape) :
    ∃ next : Except StoreError Reply → Plan,
      (∀ e, next (.error e) = .answer (explain e).toResponse) ∧
      (∀ a, shape (next (.ok (wrap a)))) ∧
      (∀ reply, shape (next (.ok reply)) ∨ next (.ok reply) = .answer (.empty 500)) ∧
      ∀ w, (onStoreOr explain f >>= rest).answer w = (Plan.operate op next).run draw w := by
  choose plan hshape hrun using h
  have hnext : ∀ reply : Reply, ∃ p : Plan, (∀ a, reply = wrap a → p = plan a) ∧
      (shape p ∨ p = .answer (.empty 500)) := by
    intro reply
    by_cases hwrap : ∃ a, reply = wrap a
    · obtain ⟨a, rfl⟩ := hwrap
      exact ⟨plan a, fun b hb => by rw [hruns.injective hb], .inl (hshape a)⟩
    · exact ⟨.answer (.empty 500), fun a ha => absurd ⟨a, ha⟩ hwrap, .inr rfl⟩
  choose after hafter hafterShape using hnext
  refine ⟨fun answer => match answer with
    | .error e => .answer (explain e).toResponse
    | .ok reply => after reply, fun _ => rfl, fun a => ?_, hafterShape, fun w => ?_⟩
  · change shape (after (wrap a))
    rw [hafter _ a rfl]
    exact hshape a
  · rw [answer_bind, onStoreOr, Plan.run, hruns.answer, hruns.apply]
    rcases f w.store with ⟨e | a, store⟩
    · rfl
    · simp only [Except.map, hafter _ a rfl, hrun]

theorem planned_note (hopen : Plan.Open shape) {op : Operation} {f : Store → Outcome α}
    {wrap : α → Reply} (hruns : op.Runs f wrap) (hop : op.Notes) {explain : StoreError → Problem}
    (hexplain : ∀ e, 400 ≤ (explain e).status) {rest : α → Handler Response}
    (h : ∀ a, (rest a).Planned draw shape) :
    (onStoreOr explain f >>= rest).Planned draw shape := by
  obtain ⟨next, herror, -, hok, hrun⟩ := exists_next hruns explain h
  refine ⟨.operate op next, hopen.note op next hop ?_, hrun⟩
  intro answer
  cases answer with
  | error e =>
    rw [herror]
    exact hopen.decline _ (hexplain e)
  | ok reply =>
    rcases hok reply with hshape | hnone
    · exact hshape
    · rw [hnone]
      exact hopen.decline _ (by decide)

theorem planned_persist {finish : Handler Response}
    (h : finish.Planned draw (Plan.Quiet (· < 400))) :
    (persist draw >>= fun _ => finish).Planned draw fun plan => ∃ rest, plan = .save rest ∧
      (∀ detail, (rest (.error (.io detail))).Quiet (500 ≤ ·)) ∧
      (rest (.ok ())).Quiet (· < 400) := by
  obtain ⟨plan, hquiet, hrun⟩ := h
  refine ⟨.save fun answer => match answer with
    | .error e => .answer (Problem.ofStore e).toResponse
    | .ok () => plan, ⟨_, rfl, fun _ => .answer (Nat.le_refl 500), hquiet⟩, fun w => ?_⟩
  rw [answer_bind, persist, Plan.run]
  rcases w.persist draw with ⟨e | a, w'⟩
  · rfl
  · exact hrun w'

theorem planned_change {own : Operation → Prop} {op : Operation} {f : Store → Outcome α}
    {wrap : α → Reply} (hruns : op.Runs f wrap) (hop : own op) {explain : StoreError → Problem}
    (hexplain : ∀ e, 400 ≤ (explain e).status) {finish : α → Handler Response}
    (h : ∀ a, (finish a).Planned draw (Plan.Quiet (· < 400))) :
    (onStoreOr explain f >>= fun a => persist draw >>= fun _ => finish a).Planned draw
      (Plan.Commits own) := by
  obtain ⟨next, herror, hok, -, hrun⟩ := exists_next hruns explain
    fun a => planned_persist (h a)
  refine ⟨.operate op next, .change hop ?_ ?_, hrun⟩
  · intro e
    rw [herror]
    exact .answer (hexplain e)
  · intro s reply hreply
    rw [hruns.answer] at hreply
    cases hanswer : (f s).1 with
    | error e =>
      rw [hanswer] at hreply
      cases hreply
    | ok a =>
      rw [hanswer] at hreply
      cases hreply
      exact hok a

/-! ## Callers and ids -/

/-- The id that stands in a path, if it spells a text. -/
def pathId? (ids : List (String × String)) : Option String :=
  ids.head?.bind fun piece => Percent.segmentText? (Utf8.encode piece.2)

/-- The id of the path is passed on, or it is turned down. -/
theorem withId_cases (ids : List (String × String)) (act : String → Handler Response) :
    (∃ id, pathId? ids = some id ∧ withId ids act = act id) ∨
      ∃ response : Response, 400 ≤ response.status ∧ withId ids act = pure response := by
  unfold withId
  split
  · split
    · rename_i id hid
      exact .inl ⟨id, hid, rfl⟩
    · exact .inr ⟨_, Nat.le_refl 400, rfl⟩
  · exact .inr ⟨.empty 404, by decide, rfl⟩

section Open

variable (hopen : Plan.Open shape)

include hopen

theorem planned_requireKey {r : Request} {rest : Grant → Handler Response}
    (h : ∀ grant, (rest grant).Planned draw shape) :
    (requireKey r >>= rest).Planned draw shape := by
  rw [requireKey, bind_assoc]
  refine planned_ask hopen fun s => ?_
  cases s.checkAccess r.carrier with
  | ok grant => exact h grant
  | error e => exact planned_fail_bind hopen (Problem.status_ofAccess e) rest

theorem planned_asOwner {r : Request} {act : Handler Response} (h : act.Planned draw shape) :
    (asOwner r act).Planned draw shape := by
  rw [asOwner, requireOwner, bind_assoc]
  refine planned_requireKey hopen fun grant => ?_
  rw [bind_assoc]
  refine planned_ask hopen fun s => ?_
  cases ownerOf? s grant.key with
  | some user => exact h
  | none => exact planned_fail_bind hopen (by decide) _

theorem planned_withId {ids : List (String × String)} {act : String → Handler Response}
    (h : ∀ id, pathId? ids = some id → (act id).Planned draw shape) :
    (withId ids act).Planned draw shape := by
  rcases withId_cases ids act with ⟨id, hid, hact⟩ | ⟨response, hstatus, hresponse⟩
  · rw [hact]
    exact h id hid
  · rw [hresponse]
    exact planned_answer (hopen.decline _ hstatus)

end Open

end Handler
end Turnstile
