import Turnstile.Proofs.Service.Alone
import Turnstile.Proofs.Service.Authorization

/-! What requests keep. A property of worlds outlasts a request if it outlasts the operations that the
request can do to the store and the saves in it, whatever the action and however it ends. -/

namespace Turnstile

open Http (Request Response)

variable {w v : World} {draw : Draw} {r : Request}

/-- The gate does the operation, whatever it lets through. -/
def Operation.AtGate : Operation → Prop
  | .beginRequest _ | .endRequestById .. => True
  | _ => False

/-- The operation is one of the gate, or the one that the request asks for. -/
def Http.Request.Does (r : Request) (draw : Draw) (op : Operation) : Prop :=
  op.AtGate ∨ ∃ action ids, r.Asks action ids ∧ action.Changes draw op ∧ action.Addresses ids op

theorem Http.Request.Does.leavesFile {op : Operation} (h : r.Does draw op) : op.LeavesFile := by
  rcases h with hgate | ⟨action, ids, -, hchanges, -⟩
  · cases op <;> trivial
  · exact Operation.leavesFile_of_changes hchanges

/-- The property outlasts each step that the request can take. -/
structure Http.Request.Preserves (r : Request) (draw : Draw) (P : World → Prop) : Prop where
  same : ∀ {w v}, P w → w.Same v → P v
  operate : ∀ {w op}, P w → r.Does draw op → P { w with store := w.store.apply op }
  persist : ∀ {w}, P w → P (w.persist draw).2

namespace Http.Request.Preserves

variable {P : World → Prop} {service : Service} {action : Action} {ids : List (String × String)}
  (h : r.Preserves draw P) (hw : P w)

include h hw

theorem run_commits {plan : Plan} (hplan : plan.Commits (r.Does draw)) :
    P (plan.run draw w).2 := by
  rcases hplan.run draw w with ⟨hsame, -⟩ | ⟨op, reply, u, hop, hsame, -, hafter, -⟩
  · exact h.same hw hsame
  · exact h.same (h.persist (h.operate (h.same hw hsame) hop)) hafter

theorem complete (admitted : Admitted) (served : Bool) :
    P (Gate.complete service draw admitted served w) := by
  have hdoes : r.Does draw (.endRequestById admitted.keyId served) := .inl trivial
  have hended := h.operate hw hdoes
  unfold Gate.complete
  simp only [Store.apply] at hended
  split
  · rename_i e s hend
    rw [hend] at hended
    exact hended
  · rename_i key s hend
    rw [hend] at hended
    dsimp only
    split
    · exact h.persist hended
    · exact hended

theorem throughGate (answer : Grant → Response) :
    P ((throughGate service draw r answer).answer w).2 := by
  rcases Handler.throughGate_cases service draw r w answer with
    ⟨p, hp⟩ | ⟨grant, key, t, -, hbegin, hgate⟩
  · rw [hp]
    exact hw
  · have hdoes : r.Does draw (.beginRequest grant.principal) := .inl trivial
    have hbegun := h.operate hw hdoes
    simp only [Store.apply, hbegin] at hbegun
    rw [hgate]
    exact h.complete hbegun ⟨grant, key.id⟩ (answer grant).succeeded

omit h in
theorem asOwner {act : Handler Response} (hact : P (act.answer w).2) :
    P ((asOwner r act).answer w).2 := by
  rcases Handler.asOwner_cases (r := r) (w := w) act with ⟨p, -, hp⟩ | ⟨-, -, -, -, hdone⟩
  · rw [hp]
    exact hw
  · rw [hdone]
    exact hact

theorem withRelease (hasks : r.Asks .release ids) :
    P ((withId ids Admin.release).answer w).2 := by
  rcases Handler.withId_cases ids Admin.release with ⟨id, -, hact⟩ | ⟨response, -, hact⟩
  · rw [hact]
    rcases Handler.release_cases (w := w) id with hsame | ⟨-, hafter, -⟩
    · exact h.same hw hsame
    · rw [hafter]
      exact h.operate hw (.inr ⟨_, ids, hasks, trivial, trivial⟩)
  · rw [hact]
    exact hw

theorem ofAction (hasks : r.Asks action ids) :
    P ((action.handler service draw ids r).answer w).2 := by
  by_cases hgate : action = .checkAccess
  · subst hgate
    exact h.throughGate hw fun grant => .json 200 (Access.report grant)
  · by_cases hrelease : action = .release
    · subst hrelease
      exact asOwner hw (h.withRelease hw hasks)
    · cases hwrites : action.writes with
      | true =>
        have hdoes : ∀ op, action.Changes draw op → action.Addresses ids op → r.Does draw op :=
          fun op hchanges haddress => .inr ⟨action, ids, hasks, hchanges, haddress⟩
        obtain ⟨act, hact, plan, hcommits, hrun⟩ :=
          Handler.commits_where service draw r hwrites ids hdoes
        rw [hact]
        refine asOwner hw ?_
        rw [hrun w]
        exact h.run_commits hw hcommits
      | false =>
        obtain ⟨plan, hquiet, hrun⟩ := Handler.asks_of_not_writes hwrites hgate hrelease ids
        rw [hrun w]
        exact h.same hw (hquiet.run draw w).1

/-- What each step keeps, the request keeps. -/
theorem handle (service : Service) : P (service.handle draw r w).2 := by
  unfold Service.handle
  split
  · exact hw
  · rename_i route ids hroute
    dsimp only
    unfold Route.handler
    split
    · rename_i action haction
      exact h.ofAction hw ⟨route, hroute, haction⟩
    · split
      · exact h.throughGate hw _
      · exact hw

end Http.Request.Preserves

/-! ## Room for saves -/

namespace World

/-- No request turns to another file. -/
theorem path_handle (service : Service) (draw : Draw) (r : Request) (w : World) :
    (service.handle draw r w).2.store.path = w.store.path := by
  have hpreserves : r.Preserves draw fun v => v.store.path = w.store.path := by
    refine ⟨fun h hsame => hsame.store.path.trans h,
      fun h hdoes => (hdoes.leavesFile.path_apply _).trans h, fun {v} h => ?_⟩
    rw [v.store_persist draw]
    exact h
  exact hpreserves.handle rfl service

/-- A save by the request can be made. -/
def Fits (w : World) (draw : Draw) : Prop :=
  ∀ path, w.store.path = some path → w.files.Ready path draw

namespace Fits

theorem same (h : w.Fits draw) (hsame : w.Same v) : v.Fits draw := by
  intro path hv
  rw [hsame.files]
  exact h path (hsame.store.path.symm.trans hv)

theorem operate (h : w.Fits draw) {op : Operation} (hop : op.LeavesFile) :
    World.Fits { w with store := w.store.apply op } draw :=
  fun path hpath => h path ((hop.path_apply w.store).symm.trans hpath)

theorem persist (h : w.Fits draw) : (w.persist draw).2.Fits draw := by
  intro path hpath
  rw [w.store_persist draw] at hpath
  simp only [World.persist, hpath]
  exact (h path hpath).save hpath

theorem load (h : w.Fits draw) (now : Moment) :
    World.Fits { w with store := (w.store.load w.files now).2 } draw := by
  have hleaves : Operation.LeavesFile (.load w.files now) := trivial
  exact h.operate hleaves

/-- When a request is through, a save by it can still be made. -/
theorem handle (h : w.Fits draw) (service : Service) (r : Request) :
    (service.handle draw r w).2.Fits draw :=
  Http.Request.Preserves.handle ⟨same, fun h hdoes => h.operate hdoes.leavesFile, persist⟩ h
    service

end Fits

end World

end Turnstile
