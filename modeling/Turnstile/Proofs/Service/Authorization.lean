import Turnstile.Proofs.Access.Check
import Turnstile.Proofs.Service.Route
import Turnstile.Proofs.Store.Usage

/-! Who can change what over HTTP. A request that changes anything is answered without telling its
caller off, and is one of two: a counted access check with an accepted key, which adds a use to that
key and nothing else, or a change by an owner, which is the one operation that its path and method
ask for. All other requests leave the data of the store and the files as they were. -/

namespace Turnstile

open Http (Request Response Problem)

/-! ## Passing the gate -/

/-- What completions rely on: a key is found by its id, and slots can be given back. -/
structure Store.Orderly (s : Store) : Prop where
  ids : (s.apiKeys.map ApiKey.id).Nodup
  trimmed : ∀ key ∈ s.apiKeys, Text.trim key.id = key.id
  inFlight : ∀ entry ∈ s.inFlight, 1 ≤ entry.2

namespace Store

variable {s t : Store} {key a : ApiKey} {g : Grant} {c : Carrier}

/-- The request presents what the key can be called with. -/
def Identifies (s : Store) (r : Request) (key : ApiKey) : Prop :=
  ∃ source, r.carrier.extract = some ⟨key.credential, source⟩ ∧ key ∈ s.apiKeys ∧
    key.Accepts ⟨key.credential, source⟩

theorem identifies_of_checkAccess {r : Request} (h : s.checkAccess r.carrier = .ok g) :
    s.Identifies r g.key :=
  ⟨g.source, accepts_of_checkAccess h⟩

/-- A request that is admitted and completed at once leaves its slot as it was. -/
theorem endRequestById_of_beginRequest (hs : s.Orderly) (hmem : key ∈ s.apiKeys)
    (hfound : s.findKey? g.principal = some key) (hbegin : s.beginRequest g.principal = (.ok a, t))
    (served : Bool) :
    a = key ∧ key.exhausted = false ∧
      (key.hasConcurrencyLimit = true → s.slots key.id < key.concurrencyLimit.toNat) ∧
      t.endRequestById a.id served =
        (.ok (if served then key.recordUse else key),
          s.withApiKeys (replaceFirst (·.id == key.id)
            (if served then key.recordUse else key) s.apiKeys)) := by
  have hkey := keyWithId?_of_mem hs.ids hmem
  have htrim := hs.trimmed key hmem
  rcases s.beginRequest_cases g.principal with ⟨e, he⟩ | ⟨found, hfound', -, hquota, hadmitted⟩
  · rw [he] at hbegin
    cases hbegin
  · rw [hfound, Option.some.injEq] at hfound'
    subst hfound'
    rcases hadmitted with ⟨hlimit, he⟩ | ⟨hlimit, hroom, he⟩
    · rw [he] at hbegin
      cases hbegin
      refine ⟨rfl, hquota, by simp [hlimit], ?_⟩
      simp [endRequestById, htrim, hkey, completeOn, hlimit, withApiKeys]
    · rw [he] at hbegin
      cases hbegin
      refine ⟨rfl, hquota, fun _ => UInt32.lt_iff_toNat_lt.mp hroom, ?_⟩
      have hback := InFlight.giveBack_reserve hs.inFlight hroom
      have hkept : ({ s with inFlight := s.inFlight.reserve key.id } : Store).keyWithId? key.id =
          some key := hkey
      simp [endRequestById, htrim, hkept, completeOn, hlimit, withApiKeys, hback, apiKeys]

/-- Saves of one data differ by nothing. -/
theorem SameData.save (h : SameData s t) (files : FileTree) (now : Moment) (tag : String) :
    t.save files now tag = s.save files now tag := by
  simp only [Store.save, payload, h.path, h.records]

end Store

/-- What a counted access check with that key has done: the key has a use more than before, or as
many as can be counted, and the file is saved anew or not at all. -/
structure CountsUse (service : Service) (draw : Draw) (r : Request) (key : ApiKey) (w v : World) :
    Prop where
  path : r.uri.path = "/v1/access"
  identified : w.store.Identifies r key
  quota : key.exhausted = false
  slot : key.hasConcurrencyLimit = true → w.store.slots key.id < key.concurrencyLimit.toNat
  counted : ∃ count : UInt64, count.toNat = min ApiKey.greatestCount (key.usedCount.toNat + 1) ∧
    v.store = w.store.withApiKeys
      (w.store.apiKeys.map fun k => if k.id = key.id then { k with usedCount := count } else k)
  files : v.files = w.files ∨
    service.saveOnUse = true ∧ v.files = (v.store.save w.files draw.now draw.tag).2

/-- What an action has done that changed something: the one operation that it is about, on the data
that it met, and a save of what came of it or none. -/
structure Action.Performs (draw : Draw) (action : Action) (w v : World) : Prop where
  changed : ∃ op reply s, action.Changes draw op ∧ Store.SameData w.store s ∧
    s.answer op = .ok reply ∧ Store.SameData (s.apply op) v.store
  files : v.files = w.files ∨ v.files = (v.store.save w.files draw.now draw.tag).2

/-- What a change by that owner, with that key, has done. -/
structure OwnerChange (draw : Draw) (r : Request) (key : ApiKey) (owner : User) (w v : World) :
    Prop where
  path : ∃ rest, r.uri.path = "/admin/" ++ rest
  identified : w.store.Identifies r key
  user : w.store.findUser? key.userId = some owner ∧ owner ∈ w.store.users
  active : owner.disabled = false
  owns : owner.role.isOwner = true
  performed : ∃ route ids action, findRoute r.uri.path = some (route, ids) ∧
    route.action? r.method = some action ∧ action.Performs draw w v
  backed : v.store.path = w.store.path

/-- An answer with that status that leaves that world has changed nothing, or tells nobody off and
has counted a use or made a change for an owner. -/
def Authorized (service : Service) (draw : Draw) (r : Request) (w : World) (status : Nat)
    (v : World) : Prop :=
  w.Same v ∨ (status < 400 ∨ 500 ≤ status) ∧
    ((∃ key, CountsUse service draw r key w v) ∨ ∃ key owner, OwnerChange draw r key owner w v)

namespace Handler

variable {service : Service} {draw : Draw} {r : Request} {w : World}

/-! ## The gate -/

/-- A request behind the gate is turned down at its entry, or completed after its answer. -/
theorem throughGate_cases (service : Service) (draw : Draw) (r : Request) (w : World)
    (answer : Grant → Response) :
    (∃ p : Problem, (throughGate service draw r answer).answer w = (p.toResponse, w)) ∨
      ∃ grant key t, w.store.checkAccess r.carrier = .ok grant ∧
        w.store.beginRequest grant.principal = (.ok key, t) ∧
        (throughGate service draw r answer).answer w =
          (answer grant, Gate.complete service draw ⟨grant, key.id⟩ (answer grant).succeeded
            { w with store := t }) := by
  rw [throughGate, answer_bind, Gate.enter]
  cases hcheck : w.store.checkAccess r.carrier with
  | error e => exact .inl ⟨_, rfl⟩
  | ok grant =>
    dsimp only
    rcases hbegin : w.store.beginRequest grant.principal with ⟨e | key, t⟩
    · have hkeeps := Store.keeps_beginRequest (s := w.store) grant.principal
      rw [hbegin] at hkeeps
      cases hkeeps
      exact .inl ⟨_, rfl⟩
    · exact .inr ⟨grant, key, t, rfl, hbegin, rfl⟩

/-- A completion that is answered has left its store behind, and has saved it if it counted and
that is wanted. -/
theorem complete_of_ok (service : Service) (draw : Draw) (admitted : Admitted) (w : World)
    {served : Bool} {after : ApiKey} {s : Store}
    (h : w.store.endRequestById admitted.keyId served = (.ok after, s)) :
    (Gate.complete service draw admitted served w).store = s ∧
      ((Gate.complete service draw admitted served w).files = w.files ∨
        service.saveOnUse = true ∧ (Gate.complete service draw admitted served w).files =
          (s.save w.files draw.now draw.tag).2) := by
  unfold Gate.complete
  rw [h]
  dsimp only
  split
  · rename_i hsaves
    refine ⟨World.store_persist _ draw, ?_⟩
    exact (World.files_persist _ draw).imp_right fun hfiles =>
      ⟨(Bool.and_eq_true_iff.mp hsaves).2, hfiles⟩
  · exact ⟨rfl, .inl rfl⟩

/-- Behind the gate, nothing but a counted use of the presented key changes anything. -/
theorem authorized_throughGate (hs : w.store.Orderly) (hpath : r.uri.path = "/v1/access")
    (answer : Grant → Response) :
    Authorized service draw r w ((throughGate service draw r answer).answer w).1.status
      ((throughGate service draw r answer).answer w).2 := by
  rcases throughGate_cases service draw r w answer with
    ⟨p, hp⟩ | ⟨grant, key, t, hcheck, hbegin, hgate⟩
  · rw [hp]
    exact .inl (.refl w)
  · have hidentified := Store.identifies_of_checkAccess hcheck
    obtain ⟨source, -, hmem, -⟩ := id hidentified
    have hkey := Store.keyWithId?_of_mem hs.ids hmem
    obtain ⟨rfl, hquota, hslot, hend⟩ := Store.endRequestById_of_beginRequest hs hmem
      (Store.findKey?_of_checkAccess hcheck) hbegin (answer grant).succeeded
    obtain ⟨hstore, hfiles⟩ := complete_of_ok service draw ⟨grant, grant.key.id⟩
      { w with store := t } hend
    rw [hgate]
    cases hserved : (answer grant).succeeded with
    | false =>
      -- the slot is free again and the key is put back as it was
      left
      rw [hserved] at hend
      unfold Gate.complete
      dsimp only
      rw [hend]
      simp only [Bool.false_eq_true, if_false, Bool.false_and, Store.replaceFirst_self hkey]
      exact .refl w
    | true =>
      rw [hserved] at hstore hfiles
      have hstatus : (answer grant).status < 400 := of_decide_eq_true hserved
      refine .inr ⟨.inl hstatus, .inl ⟨grant.key, hpath, hidentified, hquota, hslot, ?_, ?_⟩⟩
      · refine ⟨grant.key.recordUse.usedCount, grant.key.usedCount_recordUse, ?_⟩
        rw [hstore, if_pos rfl]
        exact congrArg _ (Store.replaceFirst_eq_map
          (f := fun k => { k with usedCount := grant.key.recordUse.usedCount }) hs.ids hkey)
      · rw [hstore]
        exact hfiles

/-! ## Owners -/

theorem pure_apply {α : Type} (a : α) : (pure a : Handler α) w = (.ok a, w) := rfl

theorem ownerOf?_eq_some {s : Store} {key : ApiKey} {owner : User}
    (h : ownerOf? s key = some owner) :
    s.findUser? key.userId = some owner ∧ owner ∈ s.users ∧ owner.disabled = false ∧
      owner.role.isOwner = true := by
  unfold ownerOf? at h
  split at h
  · cases h
  · obtain ⟨hfound, hactive⟩ := Option.filter_eq_some_iff.mp h
    obtain ⟨hdisabled, howns⟩ := Bool.and_eq_true_iff.mp hactive
    refine ⟨hfound, ?_, by simpa using hdisabled, howns⟩
    unfold Store.findUser? at hfound
    dsimp only at hfound
    split at hfound
    · cases hfound
    · exact List.mem_of_find?_eq_some hfound

/-- A request for an owner's action is turned down, or its caller is an owner. -/
theorem asOwner_cases (act : Handler Response) :
    (∃ p : Problem, 400 ≤ p.status ∧ (asOwner r act).answer w = (p.toResponse, w)) ∨
      ∃ grant owner, w.store.checkAccess r.carrier = .ok grant ∧
        ownerOf? w.store grant.key = some owner ∧ (asOwner r act).answer w = act.answer w := by
  rw [asOwner, answer_bind, requireOwner, bind_apply, requireKey_apply]
  cases hcheck : w.store.checkAccess r.carrier with
  | error e => exact .inl ⟨_, Problem.status_ofAccess e, rfl⟩
  | ok grant =>
    simp only [Except.mapError, bind_apply, ask]
    cases howner : ownerOf? w.store grant.key with
    | none => exact .inl ⟨.forbidden "Owner access required", by decide, rfl⟩
    | some owner => exact .inr ⟨grant, owner, rfl, howner, rfl⟩

/-- A release of slots is turned down, or is the one operation that it asks for. -/
theorem release_cases (id : String) :
    w.Same ((Admin.release id).answer w).2 ∨
      ((Admin.release id).answer w).1.status < 400 ∧
        ((Admin.release id).answer w).2 = { w with store := w.store.apply (.releaseSlots id) } ∧
        ∃ reply, w.store.answer (.releaseSlots id) = .ok reply := by
  rw [Admin.release, answer_bind, Admin.findKey, bind_apply]
  simp only [ask]
  cases w.store.findKeyById? id with
  | none => exact .inl (.refl w)
  | some key =>
    simp only [pure_apply, answer_bind, onStoreOr, Store.answer, Store.apply]
    rcases w.store.releaseSlots_cases id with ⟨-, he⟩ | ⟨-, he⟩
    · rw [he]
      exact .inl (.refl w)
    · rw [he]
      have hserved : (200 : Nat) < 400 := by decide
      exact .inr ⟨hserved, rfl, .slots (w.store.inFlight.count id), rfl⟩

/-! ## Every action -/

variable {route : Route} {ids : List (String × String)} {action : Action}

theorem not_setPath_of_changes {op : Operation} (h : action.Changes draw op) (path : String) :
    op ≠ .setPath path := by
  rintro rfl
  cases action <;> exact h

/-- Who asks for an action for owners and is not turned down is an owner. -/
theorem authorized_asOwner (hroute : findRoute r.uri.path = some (route, ids))
    (haction : route.action? r.method = some action)
    (hchange : action.writes = true ∨ action = .release) {act : Handler Response}
    (hact : w.Same (act.answer w).2 ∨
      ((act.answer w).1.status < 400 ∨ 500 ≤ (act.answer w).1.status) ∧
        action.Performs draw w (act.answer w).2) :
    Authorized service draw r w ((asOwner r act).answer w).1.status
      ((asOwner r act).answer w).2 := by
  rcases asOwner_cases (r := r) (w := w) act with ⟨p, -, hp⟩ | ⟨grant, owner, hcheck, howner, hdone⟩
  · rw [hp]
    exact .inl (.refl w)
  · rw [hdone]
    refine hact.imp_right ?_
    rintro ⟨hstatus, hperforms⟩
    obtain ⟨op, reply, s, hop, hsame, -, hafter⟩ := hperforms.changed
    obtain ⟨hfound, hmem, hactive, howns⟩ := ownerOf?_eq_some howner
    have hpath := hafter.path.trans (Store.path_apply (not_setPath_of_changes hop))
    exact ⟨hstatus, .inr ⟨grant.key, owner, Route.path_of_change hroute haction hchange,
      Store.identifies_of_checkAccess hcheck, ⟨hfound, hmem⟩, hactive, howns,
      ⟨route, ids, action, hroute, haction, hperforms⟩, hpath.trans hsame.path⟩⟩

theorem performs_of_commits {act : Handler Response}
    (hact : act.Planned draw (Plan.Commits (action.Changes draw))) :
    w.Same (act.answer w).2 ∨
      ((act.answer w).1.status < 400 ∨ 500 ≤ (act.answer w).1.status) ∧
        action.Performs draw w (act.answer w).2 := by
  obtain ⟨plan, hcommits, hrun⟩ := hact
  rw [hrun w]
  rcases hcommits.run draw w with
    ⟨hsame, -⟩ | ⟨op, reply, v, hop, hsame, hanswer, hafter, hstatus⟩
  · exact .inl hsame
  · have hdata : Store.SameData (v.store.apply op) (plan.run draw w).2.store := by
      have hstore := hafter.store
      rwa [World.store_persist] at hstore
    refine .inr ⟨hstatus, ⟨op, reply, v.store, hop, hsame.store, hanswer, hdata⟩, ?_⟩
    rw [hafter.files, hdata.save, ← hsame.files]
    exact World.files_persist { v with store := v.store.apply op } draw

theorem performs_of_release :
    w.Same ((withId ids Admin.release).answer w).2 ∨
      (((withId ids Admin.release).answer w).1.status < 400 ∨
        500 ≤ ((withId ids Admin.release).answer w).1.status) ∧
        Action.release.Performs draw w ((withId ids Admin.release).answer w).2 := by
  rcases withId_cases ids Admin.release with ⟨id, -, hid⟩ | ⟨response, -, hresponse⟩
  · rw [hid]
    refine (release_cases id).imp_right ?_
    rintro ⟨hstatus, hafter, reply, hreply⟩
    rw [hafter]
    exact ⟨.inl hstatus, ⟨.releaseSlots id, reply, w.store, trivial, .refl _, hreply, .refl _⟩,
      .inl rfl⟩
  · rw [hresponse]
    exact .inl (.refl w)

theorem authorized_asks {act : Handler Response} (hact : Asks draw act) :
    Authorized service draw r w (act.answer w).1.status (act.answer w).2 := by
  obtain ⟨plan, hquiet, hrun⟩ := hact
  rw [hrun w]
  exact .inl (hquiet.run draw w).1

theorem authorized_action (hs : w.store.Orderly)
    (hroute : findRoute r.uri.path = some (route, ids))
    (haction : route.action? r.method = some action) :
    Authorized service draw r w ((action.handler service draw ids r).answer w).1.status
      ((action.handler service draw ids r).answer w).2 := by
  by_cases hgate : action = .checkAccess
  · subst hgate
    have hhandler : Action.handler service draw ids r .checkAccess =
        throughGate service draw r fun grant => .json 200 (Access.report grant) := rfl
    rw [hhandler]
    have hmem := Route.mem_actions_of_action? haction
    exact authorized_throughGate hs (Route.path_of_gate hroute (.inr hmem)) _
  · by_cases hrelease : action = .release
    · subst hrelease
      have hhandler : Action.handler service draw ids r .release =
          asOwner r (withId ids Admin.release) := rfl
      rw [hhandler]
      exact authorized_asOwner hroute haction (.inr rfl) performs_of_release
    · cases hwrites : action.writes with
      | true =>
        obtain ⟨act, hact, hcommits⟩ := commits_of_writes service draw r hwrites ids
        rw [hact]
        exact authorized_asOwner hroute haction (.inl hwrites) (performs_of_commits hcommits)
      | false => exact authorized_asks (asks_of_not_writes hwrites hgate hrelease ids)

theorem authorized_route (hs : w.store.Orderly)
    (hroute : findRoute r.uri.path = some (route, ids)) :
    Authorized service draw r w ((route.handler service draw ids r).answer w).1.status
      ((route.handler service draw ids r).answer w).2 := by
  unfold Route.handler
  split
  · rename_i action haction
    exact authorized_action hs hroute haction
  · split
    · rename_i hgated
      exact authorized_throughGate hs (Route.path_of_gate hroute (.inl hgated)) _
    · exact .inl (.refl w)

end Handler

/-! ## Every request -/

namespace Http.Response

theorem status_forMethod (method : String) (response : Response) :
    (forMethod method response).status = response.status := by
  unfold forMethod
  split <;> rfl

theorem status_tellAllowed (route : Route) (method : String) (response : Response) :
    (route.tellAllowed method response).status = response.status := by
  unfold Route.tellAllowed
  split <;> rfl

end Http.Response

namespace Service

theorem handle_authorized (service : Service) (draw : Draw) (r : Request) (w : World)
    (hs : w.store.Orderly) :
    Authorized service draw r w (service.handle draw r w).1.status
      (service.handle draw r w).2 := by
  unfold handle
  split
  · exact .inl (.refl w)
  · rename_i route ids hroute
    dsimp only
    rw [Response.status_forMethod, Response.status_tellAllowed]
    exact Handler.authorized_route hs hroute

/-- A request that changes the records, the requests in flight, the path or the files is not told
off, and is a counted access check or a change by an owner. -/
theorem changes_authorized (service : Service) (draw : Draw) (r : Request) (w : World)
    (hs : w.store.Orderly) (hchanged : ¬ w.Same (service.handle draw r w).2) :
    ((service.handle draw r w).1.status < 400 ∨ 500 ≤ (service.handle draw r w).1.status) ∧
      ((∃ key, CountsUse service draw r key w (service.handle draw r w).2) ∨
        ∃ key owner, OwnerChange draw r key owner w (service.handle draw r w).2) :=
  (service.handle_authorized draw r w hs).resolve_left hchanged

/-- A used key of an owner. -/
def masterStore : Store :=
  { Store.new none .epoch with
    records := ⟨1, .epoch, [⟨"user_1", "ada", "", .owner, false, .epoch⟩],
      [{ ApiKey.fresh "tk_master" "" .epoch with
        id := "key_1", userId := "user_1", usedCount := 3 }]⟩ }

def master : World := ⟨masterStore, .empty⟩

def masterService : Service :=
  ⟨⟨fun _ password => .ok password, fun hash word => hash == word⟩, true⟩

def masterDraw : Draw := ⟨.epoch, "user_9", "key_9", "tk_9", [], "tag", "request"⟩

/-- The owner takes the count of the own key back to zero. -/
def selfReset : Request :=
  ⟨"POST", ⟨"/admin/api-keys/key_1/reset-usage", none⟩,
    [⟨"x-api-key", Utf8.encode "tk_master"⟩], []⟩

theorem changes_authorized_selfReset :
    masterStore.Orderly ∧ ¬ master.Same (masterService.handle masterDraw selfReset master).2 ∧
      ∃ key owner, OwnerChange masterDraw selfReset key owner master
        (masterService.handle masterDraw selfReset master).2 := by
  have horderly : masterStore.Orderly := ⟨by decide +kernel, by decide +kernel, nofun⟩
  have hchanged : ¬ master.Same (masterService.handle masterDraw selfReset master).2 := by
    intro hsame
    have hrecords : (masterService.handle masterDraw selfReset master).2.store.records ≠
        master.store.records := by
      decide +kernel
    exact hrecords hsame.store.records
  obtain ⟨-, ⟨key, huse⟩ | howner⟩ :=
    changes_authorized masterService masterDraw selfReset master horderly hchanged
  · exact absurd huse.path (by decide)
  · exact ⟨horderly, hchanged, howner⟩

end Service
end Turnstile
