import Turnstile.Proofs.Store.Failure
import Turnstile.Service.Router

/-! Requests as sequences of turns. A turn is a question to the store, an operation or a save, and
what is left of a request depends on the answer. A handler is such a plan carried out without a
break; side by side with others, the turns of a request are taken one by one. -/

namespace Turnstile

open Http (Problem Response)

/-- What is left of a request. -/
inductive Plan where
  | answer (response : Response)
  | ask (next : Store → Plan)
  | operate (op : Operation) (next : Except StoreError Reply → Plan)
  | save (next : Except StoreError Unit → Plan)

namespace Plan

/-- All turns without a break. -/
def run (draw : Draw) : Plan → World → Response × World
  | .answer response, w => (response, w)
  | .ask next, w => (next w.store).run draw w
  | .operate op next, w => (next (w.store.answer op)).run draw { w with store := w.store.apply op }
  | .save next, w => (next (w.persist draw).1).run draw (w.persist draw).2

end Plan

/-! ## Operations that change no data -/

/-- The operation changes only what the store remembers about hashing. -/
def Operation.Notes : Operation → Prop
  | .hashPassword .. | .authenticate .. => True
  | _ => False

theorem Operation.Notes.sameData {op : Operation} (h : op.Notes) (s : Store) :
    Store.SameData s (s.apply op) := by
  cases op with
  | hashPassword hasher salt password => exact Store.sameData_hashPassword hasher salt password
  | authenticate hasher salt username password =>
    exact Store.sameData_authenticate hasher salt username password
  | _ => cases h

/-- What a handler asks of the store is this operation, and the answer is spelled as a reply. -/
structure Operation.Runs {α : Type} (op : Operation) (f : Store → Outcome α) (wrap : α → Reply) :
    Prop where
  answer : ∀ s, s.answer op = (f s).1.map wrap
  apply : ∀ s, s.apply op = (f s).2
  injective : Function.Injective wrap

/-- The data of the store and the files are the same. -/
structure World.Same (w v : World) : Prop where
  store : Store.SameData w.store v.store
  files : v.files = w.files

theorem World.Same.refl (w : World) : w.Same w := ⟨.refl _, rfl⟩

theorem World.Same.trans {w v u : World} (h : w.Same v) (h' : v.Same u) : w.Same u :=
  ⟨h.store.trans h'.store, h'.files.trans h.files⟩

theorem World.same_of_notes {op : Operation} (h : op.Notes) (w : World) :
    w.Same { w with store := w.store.apply op } :=
  ⟨h.sameData w.store, rfl⟩

/-! ## Shapes of plans -/

namespace Plan

variable {draw : Draw} {plan : Plan}

/-- The plan only asks, and its answers have such a status. -/
inductive Quiet (status : Nat → Prop) : Plan → Prop
  | answer {response : Response} (h : status response.status) : Quiet status (.answer response)
  | ask {next : Store → Plan} (h : ∀ s, Quiet status (next s)) : Quiet status (.ask next)
  | note {op : Operation} {next : Except StoreError Reply → Plan} (hop : op.Notes)
      (h : ∀ answer, Quiet status (next answer)) : Quiet status (.operate op next)

theorem Quiet.run {status : Nat → Prop} (h : plan.Quiet status) (draw : Draw) (w : World) :
    w.Same (plan.run draw w).2 ∧ status (plan.run draw w).1.status := by
  induction h generalizing w with
  | answer h => exact ⟨.refl w, h⟩
  | ask _ ih => exact ih w.store w
  | note hop _ ih =>
    obtain ⟨hsame, hstatus⟩ := ih (w.store.answer _) { w with store := w.store.apply _ }
    exact ⟨(World.same_of_notes hop w).trans hsame, hstatus⟩

theorem Quiet.mono {P Q : Nat → Prop} (hPQ : ∀ n, P n → Q n) (h : plan.Quiet P) :
    plan.Quiet Q := by
  induction h with
  | answer h => exact .answer (hPQ _ h)
  | ask _ ih => exact .ask ih
  | note hop _ ih => exact .note hop ih

theorem Quiet.ask_inv {status : Nat → Prop} {next : Store → Plan} (h : (Plan.ask next).Quiet status)
    (s : Store) : (next s).Quiet status := by
  cases h with
  | ask h => exact h s

theorem Quiet.operate_inv {status : Nat → Prop} {op : Operation}
    {next : Except StoreError Reply → Plan} (h : (Plan.operate op next).Quiet status)
    (answer : Except StoreError Reply) : (next answer).Quiet status := by
  cases h with
  | note _ h => exact h answer

/-- The plan asks for one operation of its own at most, which is saved before it is answered. An
answer that is not an error is given after a save that succeeded. -/
inductive Commits (own : Operation → Prop) : Plan → Prop
  | decline {response : Response} (h : 400 ≤ response.status) : Commits own (.answer response)
  | ask {next : Store → Plan} (h : ∀ s, Commits own (next s)) : Commits own (.ask next)
  | note {op : Operation} {next : Except StoreError Reply → Plan} (hop : op.Notes)
      (h : ∀ answer, Commits own (next answer)) : Commits own (.operate op next)
  | change {op : Operation} {next : Except StoreError Reply → Plan} (hop : own op)
      (hrefused : ∀ e, (next (.error e)).Quiet (400 ≤ ·))
      (hdone : ∀ (s : Store) (reply : Reply), s.answer op = .ok reply →
        ∃ rest, next (.ok reply) = .save rest ∧
          (∀ detail, (rest (.error (.io detail))).Quiet (500 ≤ ·)) ∧
          (rest (.ok ())).Quiet (· < 400)) :
      Commits own (.operate op next)

/-- A shape that takes in whatever asks before it and every answer with an error. -/
structure Open (shape : Plan → Prop) : Prop where
  decline : ∀ response : Response, 400 ≤ response.status → shape (.answer response)
  ask : ∀ next : Store → Plan, (∀ s, shape (next s)) → shape (.ask next)
  note : ∀ (op : Operation) (next : Except StoreError Reply → Plan), op.Notes →
    (∀ answer, shape (next answer)) → shape (.operate op next)

theorem Quiet.isOpen {status : Nat → Prop} (h : ∀ n, 400 ≤ n → status n) :
    Open (Quiet status) :=
  ⟨fun _ hresponse => .answer (h _ hresponse), fun _ => .ask, fun _ _ => .note⟩

theorem Commits.isOpen {own : Operation → Prop} : Open (Commits own) :=
  ⟨fun _ => .decline, fun _ => .ask, fun _ _ => .note⟩

end Plan

/-! ## Saves -/

/-- A store with a file answers no other error to a save. -/
theorem Store.save_answer {s : Store} {path : String} (hpath : s.path = some path)
    (files : FileTree) (now : Moment) (tag : String) :
    (s.save files now tag).1 = .ok () ∨
      ∃ detail, (s.save files now tag).1 = .error (.io detail) := by
  simp only [save, hpath]
  split
  · exact .inl rfl
  · exact .inr ⟨_, rfl⟩
  · exact .inr ⟨_, rfl⟩

theorem World.persist_answer (w : World) (draw : Draw) :
    (w.persist draw).1 = .ok () ∨ ∃ detail, (w.persist draw).1 = .error (.io detail) := by
  unfold persist
  split
  · exact .inl rfl
  · rename_i path hpath
    exact Store.save_answer hpath w.files draw.now draw.tag

theorem World.store_persist (w : World) (draw : Draw) : (w.persist draw).2.store = w.store := by
  unfold persist
  split <;> rfl

theorem World.files_persist (w : World) (draw : Draw) :
    (w.persist draw).2.files = w.files ∨
      (w.persist draw).2.files = (w.store.save w.files draw.now draw.tag).2 := by
  unfold persist
  split
  · exact .inl rfl
  · exact .inr rfl

/-- What a plan that commits has done when it is answered: nothing, or one operation of its own,
which was then saved. -/
theorem Plan.Commits.run {own : Operation → Prop} {plan : Plan} (h : plan.Commits own)
    (draw : Draw) (w : World) :
    (w.Same (plan.run draw w).2 ∧ 400 ≤ (plan.run draw w).1.status) ∨
      ∃ op reply v, own op ∧ w.Same v ∧ v.store.answer op = .ok reply ∧
        ({ v with store := v.store.apply op }.persist draw).2.Same (plan.run draw w).2 ∧
        ((plan.run draw w).1.status < 400 ∨ 500 ≤ (plan.run draw w).1.status) := by
  induction h generalizing w with
  | decline h => exact .inl ⟨.refl w, h⟩
  | ask _ ih => exact ih w.store w
  | @note op next hop _ ih =>
    have hnoted := World.same_of_notes hop w
    rcases ih (w.store.answer op) { w with store := w.store.apply op } with
      ⟨hsame, hstatus⟩ | ⟨op', reply, v, hown, hsame, hdone⟩
    · exact .inl ⟨hnoted.trans hsame, hstatus⟩
    · exact .inr ⟨op', reply, v, hown, hnoted.trans hsame, hdone⟩
  | @change op next hop hrefused hdone =>
    cases hanswer : w.store.answer op with
    | error e =>
      obtain ⟨hsame, hstatus⟩ :=
        (hrefused e).run draw { w with store := w.store.apply op }
      have hkept : w.Same { w with store := w.store.apply op } := by
        refine ⟨(w.store.same_or_answered op).resolve_right ?_, rfl⟩
        rintro ⟨reply, hreply⟩
        rw [hanswer] at hreply
        cases hreply
      rw [Plan.run, hanswer]
      exact .inl ⟨hkept.trans hsame, hstatus⟩
    | ok reply =>
      obtain ⟨rest, hrest, hfailed, hsaved⟩ := hdone w.store reply hanswer
      refine .inr ⟨op, reply, w, hop, .refl w, hanswer, ?_⟩
      rw [Plan.run, hanswer, hrest, Plan.run]
      rcases World.persist_answer { w with store := w.store.apply op } draw with hok | ⟨detail, hio⟩
      · rw [hok]
        obtain ⟨hsame, hstatus⟩ := hsaved.run draw
          ({ w with store := w.store.apply op }.persist draw).2
        exact ⟨hsame, .inl hstatus⟩
      · rw [hio]
        obtain ⟨hsame, hstatus⟩ := (hfailed detail).run draw
          ({ w with store := w.store.apply op }.persist draw).2
        exact ⟨hsame, .inr hstatus⟩

end Turnstile
