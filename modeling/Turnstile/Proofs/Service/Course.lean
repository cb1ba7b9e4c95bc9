import Turnstile.Proofs.Service.Action

/-! What a request has done when it is answered. A course of a plan is what its operations and saves
answered so far, with what is left of the plan. It says nothing of what others did in between, so
what holds of every course holds however the turns of several requests fall. -/

namespace Turnstile

open Http (Problem Response)

/-- A turn of a request that is over. A moment counts the operations that all requests asked for
before. -/
inductive Entry where
  /-- The operation was the one at that moment. -/
  | operated (op : Operation) (answer : Except StoreError Reply) (since : Nat)
  /-- The save was asked for at that moment. -/
  | saved (called : Nat) (answer : Except StoreError Unit)

namespace Plan

variable {plan current : Plan} {log : List Entry} {own : Operation → Prop}

/-- After these entries, this is left of the plan. -/
inductive After (plan : Plan) : List Entry → Plan → Prop
  | start : After plan [] plan
  | ask {log : List Entry} {next : Store → Plan} (h : After plan log (.ask next)) (s : Store) :
      After plan log (next s)
  | operate {log : List Entry} {op : Operation} {next : Except StoreError Reply → Plan}
      (h : After plan log (.operate op next)) (s : Store) (since : Nat) :
      After plan (log ++ [.operated op (s.answer op) since]) (next (s.answer op))
  | save {log : List Entry} {next : Except StoreError Unit → Plan} (h : After plan log (.save next))
      (called : Nat) {answer : Except StoreError Unit}
      (hanswer : answer = .ok () ∨ ∃ detail, answer = .error (.io detail)) :
      After plan (log ++ [.saved called answer]) (next answer)

/-! ## Changes that are saved before they are answered -/

/-- How far a plan that commits has come. -/
inductive Committing (own : Operation → Prop) (log : List Entry) (current : Plan) : Prop
  | before (h : current.Commits own)
  /-- It was turned down, or its save failed. -/
  | failed (h : current.Quiet (400 ≤ ·))
  | changed (op : Operation) (reply : Reply) (since : Nat) (hop : own op)
      (hlog : ∃ past, log = past ++ [.operated op (.ok reply) since])
      (h : ∃ rest, current = .save rest ∧ (∀ detail, (rest (.error (.io detail))).Quiet (500 ≤ ·)) ∧
        (rest (.ok ())).Quiet (· < 400))
  | saved (op : Operation) (reply : Reply) (since called : Nat) (hop : own op)
      (hlog : [.operated op (.ok reply) since, .saved called (.ok ())].Sublist log)
      (h : current.Quiet (· < 400))

theorem committing (hplan : plan.Commits own) (h : plan.After log current) :
    Committing own log current := by
  induction h with
  | start => exact .before hplan
  | ask _ s ih =>
    cases ih with
    | before h =>
      cases h with
      | ask h => exact .before (h s)
    | failed h => exact .failed (h.ask_inv s)
    | changed _ _ _ _ _ h => obtain ⟨_, hsave, -⟩ := h; cases hsave
    | saved op reply since called hop hlog h =>
      exact .saved op reply since called hop hlog (h.ask_inv s)
  | @operate log op next _ s since ih =>
    cases ih with
    | before h =>
      cases h with
      | note _ h => exact .before (h (s.answer op))
      | change hop hrefused hdone =>
        cases hanswer : s.answer op with
        | error e => exact .failed (hrefused e)
        | ok reply => exact .changed op reply since hop ⟨log, rfl⟩ (hdone s reply hanswer)
    | failed h => exact .failed (h.operate_inv _)
    | changed _ _ _ _ _ h => obtain ⟨_, hsave, -⟩ := h; cases hsave
    | saved op' reply since' called hop hlog h =>
      exact .saved op' reply since' called hop (hlog.trans (List.sublist_append_left _ _))
        (h.operate_inv _)
  | @save log next _ called answer hanswer ih =>
    cases ih with
    | before h => cases h
    | failed h => cases h
    | changed op reply since hop hlog h =>
      obtain ⟨rest, hsave, hfailed, hsaved⟩ := h
      obtain ⟨past, rfl⟩ := hlog
      cases hsave
      rcases hanswer with rfl | ⟨detail, rfl⟩
      · refine .saved op reply since called hop ?_ hsaved
        rw [List.append_assoc]
        exact List.sublist_append_right past _
      · exact .failed ((hfailed detail).mono fun _ h => Nat.le_trans (by decide) h)
    | saved _ _ _ _ _ _ h => cases h

/-- An answer without an error comes after a change of its own that was saved. -/
theorem Commits.saved {response : Response} (hplan : plan.Commits own)
    (h : plan.After log (.answer response)) (hstatus : response.status < 400) :
    ∃ op reply since called, own op ∧
      [.operated op (.ok reply) since, .saved called (.ok ())].Sublist log := by
  cases committing hplan h with
  | before h =>
    cases h with
    | decline h => exact absurd hstatus (Nat.not_lt.mpr h)
  | failed h =>
    cases h with
    | answer h => exact absurd hstatus (Nat.not_lt.mpr h)
  | changed _ _ _ _ _ h => obtain ⟨_, hsave, -⟩ := h; cases hsave
  | saved op reply since called hop hlog => exact ⟨op, reply, since, called, hop, hlog⟩

/-! ## Changes that are saved whatever is answered -/

/-- Whenever an operation of its own is answered, the plan saves at once. -/
inductive Saves (own : Operation → Prop) : Plan → Prop
  | answer (response : Response) : Saves own (.answer response)
  | ask {next : Store → Plan} (h : ∀ s, Saves own (next s)) : Saves own (.ask next)
  | operate {op : Operation} {next : Except StoreError Reply → Plan}
      (hop : own op → ∀ reply, ∃ rest, next (.ok reply) = .save rest)
      (h : ∀ answer, Saves own (next answer)) : Saves own (.operate op next)
  | save {next : Except StoreError Unit → Plan} (h : ∀ answer, Saves own (next answer)) :
      Saves own (.save next)

theorem saving (hplan : plan.Saves own) (h : plan.After log current) :
    current.Saves own ∧ ∀ op reply since, own op → .operated op (.ok reply) since ∈ log →
      (∃ called answer, [.operated op (.ok reply) since, .saved called answer].Sublist log) ∨
        (∃ past, log = past ++ [.operated op (.ok reply) since]) ∧
          ∃ rest, current = .save rest := by
  induction h with
  | start => exact ⟨hplan, fun _ _ _ _ hmem => absurd hmem List.not_mem_nil⟩
  | ask _ s ih =>
    obtain ⟨hsaves, hlog⟩ := ih
    cases hsaves with
    | ask h =>
      refine ⟨h s, fun op reply since hown hmem => ?_⟩
      rcases hlog op reply since hown hmem with hsaved | ⟨-, rest, hrest⟩
      · exact .inl hsaved
      · cases hrest
  | @operate log op next _ s since ih =>
    obtain ⟨hsaves, hlog⟩ := ih
    cases hsaves with
    | operate hop h =>
      refine ⟨h _, fun op' reply since' hown hmem => ?_⟩
      rcases List.mem_append.mp hmem with hold | hnew
      · rcases hlog op' reply since' hown hold with ⟨called, answer, hsaved⟩ | ⟨-, rest, hrest⟩
        · exact .inl ⟨called, answer, hsaved.trans (List.sublist_append_left log _)⟩
        · cases hrest
      · obtain ⟨rfl, hanswer, rfl⟩ := Entry.operated.inj (List.mem_singleton.mp hnew)
        rw [← hanswer]
        exact .inr ⟨⟨log, rfl⟩, hop hown reply⟩
  | @save log next _ called answer _ ih =>
    obtain ⟨hsaves, hlog⟩ := ih
    cases hsaves with
    | save h =>
      refine ⟨h answer, fun op reply since hown hmem => .inl ?_⟩
      have hold : .operated op (.ok reply) since ∈ log := by
        rcases List.mem_append.mp hmem with hold | hnew
        · exact hold
        · cases List.mem_singleton.mp hnew
      rcases hlog op reply since hown hold with ⟨called', answer', hsaved⟩ | ⟨⟨past, rfl⟩, -⟩
      · exact ⟨called', answer', hsaved.trans (List.sublist_append_left log _)⟩
      · refine ⟨called, answer, ?_⟩
        rw [List.append_assoc]
        exact List.sublist_append_right past _

/-- When the plan is answered, a change of its own has been saved, or a save of it has failed. -/
theorem Saves.saved {response : Response} (hplan : plan.Saves own)
    (h : plan.After log (.answer response)) {op : Operation} {reply : Reply} {since : Nat}
    (hop : own op) (hmem : .operated op (.ok reply) since ∈ log) :
    ∃ called answer, [.operated op (.ok reply) since, .saved called answer].Sublist log := by
  rcases (saving hplan h).2 op reply since hop hmem with hsaved | ⟨-, rest, hrest⟩
  · exact hsaved
  · cases hrest

end Plan
end Turnstile
