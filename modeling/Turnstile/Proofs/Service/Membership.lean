import Turnstile.Proofs.Run
import Turnstile.Proofs.Service.Kept
import Turnstile.Proofs.Store.Account

/-! What becomes of an account. The store and its file know a user; requests that are on other
users, saves and loads leave it at that, in any order. -/

namespace Turnstile

open Http (Request Response Problem)

variable {w v : World} {user : User} {draw : Draw}

namespace World

/-- The user has an account in the store, and in its file if it has one. -/
structure Knows (w : World) (user : User) : Prop where
  account : Account w.store.users user
  filed : ∀ path, w.store.path = some path → ∃ bytes, w.files.contents path = .ok bytes ∧
    ∀ now r, RecordSet.read? now bytes = some r → Account r.users user

theorem users_of_read?_payload {s : Store} {now later : Moment} {r : RecordSet}
    (h : RecordSet.read? later (s.payload now) = some r) : r.users = s.users := by
  rw [s.read?_payload] at h
  cases h
  rfl

/-- After a save the path holds what it held, or what the store holds. -/
theorem contents_persist (hfits : w.Fits draw) {path : String} (hpath : w.store.path = some path)
    {bytes : List UInt8} (hbytes : w.files.contents path = .ok bytes) :
    (w.persist draw).2.files.contents path = .ok bytes ∨
      (w.persist draw).2.files.contents path = .ok (w.store.payload draw.now) := by
  have hready := hfits path hpath
  obtain ⟨htree, -⟩ := Store.save_of_path hpath w.files draw.now draw.tag
  obtain ⟨haround, hholds⟩ := Replacement.holds_of_reaches hready.tag (hready.unused w.store)
    hready.wellFormed Replacement.reaches_run
  have hfiles : (w.persist draw).2.files =
      ((w.store.replacement path draw.now draw.tag).run w.files).2 := by
    rw [← htree]
    simp only [persist, hpath]
  rw [hfiles]
  cases hholds.reads hready.tag hready.wellFormed haround with
  | same h => exact .inl (h.trans hbytes)
  | new h =>
    rw [Store.replacement_target, Store.replacement_bytes] at h
    exact .inr h
  | long hbefore => cases hbytes.symm.trans hbefore
  | up hbefore => cases hbytes.symm.trans hbefore

/-- A save that went well leaves at the path what the store holds. -/
theorem contents_of_persisted (hsaved : (w.persist draw).1 = .ok ()) {path : String}
    (hpath : w.store.path = some path) :
    (w.persist draw).2.files.contents path = .ok (w.store.payload draw.now) := by
  obtain ⟨htree, hanswer⟩ := Store.save_of_path hpath w.files draw.now draw.tag
  simp only [persist, hpath] at hsaved ⊢
  rw [htree]
  generalize hrun : (w.store.replacement path draw.now draw.tag).run w.files = outcome at hanswer ⊢
  obtain ⟨answer, after⟩ := outcome
  obtain rfl : answer = .ok () := hanswer.mp hsaved
  have hcontents := Replacement.contents_of_run hrun
  rwa [Store.replacement_target, Store.replacement_bytes] at hcontents

theorem knows_of_persisted (haccount : Account w.store.users user)
    (hsaved : (w.persist draw).1 = .ok ()) : (w.persist draw).2.Knows user := by
  have hstore := w.store_persist draw
  refine ⟨hstore.symm ▸ haccount, fun path hpath => ?_⟩
  rw [hstore] at hpath
  refine ⟨_, contents_of_persisted hsaved hpath, fun now r hread => ?_⟩
  rw [users_of_read?_payload hread]
  exact haccount

namespace Knows

variable (h : w.Knows user)

include h

theorem same (hsame : w.Same v) : v.Knows user := by
  refine ⟨h.account.congr (Store.users_of_records hsame.store.records), fun path hpath => ?_⟩
  rw [hsame.files]
  exact h.filed path (hsame.store.path.symm.trans hpath)

theorem operate {op : Operation} (hop : op.Spares user.id) :
    World.Knows { w with store := w.store.apply op } user := by
  exact ⟨h.account.apply hop, fun path hpath =>
    h.filed path ((hop.path_apply w.store).symm.trans hpath)⟩

theorem persist (hfits : w.Fits draw) : (w.persist draw).2.Knows user := by
  have hstore := w.store_persist draw
  refine ⟨hstore.symm ▸ h.account, fun path hpath => ?_⟩
  rw [hstore] at hpath
  obtain ⟨bytes, hbytes, hread⟩ := h.filed path hpath
  rcases contents_persist hfits hpath hbytes with hold | hnew
  · exact ⟨bytes, hold, hread⟩
  · refine ⟨_, hnew, fun now r hread => ?_⟩
    rw [users_of_read?_payload hread]
    exact h.account

theorem load (now : Moment) :
    World.Knows { w with store := (w.store.load w.files now).2 } user := by
  unfold Store.load
  split
  · exact h
  · rename_i path hpath
    obtain ⟨bytes, hbytes, hread⟩ := h.filed path hpath
    rw [hbytes]
    dsimp only
    split
    · rename_i r hr
      exact ⟨hread now r hr, h.filed⟩
    · exact h

end Knows

end World

/-! ## Requests -/

/-- The request is one to change or to delete the user with that id. -/
def Http.Request.Names (r : Request) (id : String) : Prop :=
  ∃ action ids given, r.Asks action ids ∧ (action = .updateUser ∨ action = .deleteUser) ∧
    Handler.pathId? ids = some given ∧ Text.trim given = id

theorem Http.Request.not_names {r : Request} {id : String} {route : Route}
    {ids : List (String × String)} (hroute : findRoute r.uri.path = some (route, ids))
    (hother : ∀ given ∈ Handler.pathId? ids, Text.trim given ≠ id) : ¬ r.Names id := by
  rintro ⟨action, others, given, ⟨found, hfound, -⟩, -, hgiven, hid⟩
  obtain ⟨-, rfl⟩ := Prod.mk.inj (Option.some.inj (hroute.symm.trans hfound))
  exact hother given hgiven hid

section Requests

variable {service : Service} {r : Request} {ids : List (String × String)} {action : Action}

/-- Who does not name the user asks for nothing about the user. -/
theorem Operation.spares_of_changes {id : String} (hnames : ¬ r.Names id)
    (hasks : r.Asks action ids) {op : Operation} (hchanges : action.Changes draw op)
    (haddress : action.Addresses ids op) : op.Spares id := by
  cases action with
  | createUser =>
    cases op with
    | upsertUser => exact haddress
    | _ => exact hchanges.elim
  | updateUser =>
    cases op with
    | updateUser given patch =>
      exact fun hid => hnames ⟨_, ids, given, hasks, .inl rfl, haddress, hid⟩
    | _ => exact hchanges.elim
  | deleteUser =>
    cases op with
    | deleteUser given =>
      exact fun hid => hnames ⟨_, ids, given, hasks, .inr rfl, haddress, hid⟩
    | _ => exact hchanges.elim
  | _ => cases op <;> trivial

namespace World

/-- An account, and room for the saves of a request, outlast a request on other users. -/
theorem preserves_knows (hnames : ¬ r.Names user.id) :
    r.Preserves draw fun w => w.Knows user ∧ w.Fits draw where
  same h hsame := ⟨h.1.same hsame, h.2.same hsame⟩
  operate {w op} h hdoes := by
    have hspares : op.Spares user.id := by
      rcases hdoes with hgate | ⟨action, ids, hasks, hchanges, haddress⟩
      · cases op <;> trivial
      · exact Operation.spares_of_changes hnames hasks hchanges haddress
    exact ⟨h.1.operate hspares, h.2.operate hdoes.leavesFile⟩
  persist h := ⟨h.1.persist h.2, h.2.persist⟩

/-- A request that changes nothing about the user leaves the account. -/
theorem Knows.handle (h : w.Knows user) (hfits : w.Fits draw)
    (hspared : r.Names user.id → w.Same (service.handle draw r w).2) :
    (service.handle draw r w).2.Knows user := by
  by_cases hnames : r.Names user.id
  · exact h.same (hspared hnames)
  · exact ((preserves_knows hnames).handle ⟨h, hfits⟩ service).1

end World

end Requests

/-! ## Events -/

namespace World

/-- What can happen to a world: a request, a save, or a load of what the file holds. -/
inductive Event where
  | request (draw : Draw) (r : Request)
  | save (draw : Draw)
  | load (now : Moment)

variable {service : Service}

def next (service : Service) (w : World) : Event → World
  | .request draw r => (service.handle draw r w).2
  | .save draw => (w.persist draw).2
  | .load now => { w with store := (w.store.load w.files now).2 }

/-- The event neither changes nor deletes the user, and a save in it can be made. -/
def Spares (service : Service) (user : User) (w : World) : Event → Prop
  | .request draw r =>
    w.Fits draw ∧ (r.Names user.id → w.Same (service.handle draw r w).2)
  | .save draw => w.Fits draw
  | .load _ => True

/-- Each event of the run spares the user in the world that it comes to. -/
def SparedBy (service : Service) (user : User) (w : World) : List Event → Prop
  | [] => True
  | event :: rest => w.Spares service user event ∧ (w.next service event).SparedBy service user rest

/-- The event is no request on the user with that id, and what it saves it saves with that draw. -/
def Event.Apart (draw : Draw) (id : String) : Event → Prop
  | .request other r => other = draw ∧ ¬ r.Names id
  | .save other => other = draw
  | .load _ => True

theorem Fits.next (h : w.Fits draw) {event : Event} (hapart : event.Apart draw user.id) :
    (w.next service event).Fits draw := by
  cases event with
  | request other r =>
    obtain ⟨rfl, -⟩ := hapart
    exact h.handle service r
  | save other =>
    obtain rfl := hapart
    exact h.persist
  | load now => exact h.load now

/-- Where a save can be made at first, every later one with the same draw can be made. -/
theorem sparedBy_of_fits (h : w.Fits draw) {run : List Event}
    (hrun : ∀ event ∈ run, event.Apart draw user.id) : w.SparedBy service user run := by
  induction run generalizing w with
  | nil => exact trivial
  | cons event rest ih =>
    obtain ⟨hfirst, hrest⟩ := List.forall_mem_cons.mp hrun
    refine ⟨?_, ih (h.next hfirst) hrest⟩
    cases event with
    | request other r =>
      obtain ⟨rfl, hnames⟩ := hfirst
      exact ⟨h, fun hnamed => absurd hnamed hnames⟩
    | save other =>
      obtain rfl := hfirst
      exact h
    | load now => exact trivial

theorem Knows.next (h : w.Knows user) {event : Event} (hspares : w.Spares service user event) :
    (w.next service event).Knows user := by
  cases event with
  | request draw r => exact h.handle hspares.1 hspares.2
  | save draw => exact h.persist hspares
  | load now => exact h.load now

/-- An account outlasts every run that spares it. -/
theorem Knows.after (h : w.Knows user) {run : List Event} (hspared : w.SparedBy service user run) :
    (Run.after (World.next service) w run).Knows user := by
  induction run generalizing w with
  | nil => exact h
  | cons event rest ih => exact ih (h.next hspared.1) hspared.2

end World

end Turnstile
