import Turnstile.Proofs.Service.Authorization
import Turnstile.Proofs.Service.Route
import Turnstile.Proofs.Store.Naming

/-! The paths of a key. Whether a request of an owner finds the key that its path names is up to the
look-ups by id that its action is made of: most of them cut the blanks around the id, the reset and
the release take it as it stands. The paths of a key are all there or all not there exactly if a key
has the id as it stands and one has it without blanks, or none has it either way. -/

namespace Turnstile

open Http (Problem Request Response)

/-- The actions on one key that is named by the path. -/
def keyActions : List Action := [.getKey, .updateKey, .deleteKey, .resetUsage, .release]

/-- The action does not find a key by this id. -/
def Action.Misses (s : Store) (id : String) : Action → Prop
  | .getKey | .updateKey | .deleteKey => s.keyWithId? (Text.trim id) = none
  | .resetUsage => s.keyWithId? id = none
  | .release => s.keyWithId? (Text.trim id) = none ∨ s.keyWithId? id = none
  | _ => False

/-- An owner asks for the action on the key with this id. A change comes as a request that can be
read, and names a stored user as the owner of the key or leaves the owner alone. -/
structure Http.Request.AsksAbout (r : Request) (action : Action) (id : String) (w : World) :
    Prop where
  asks : ∃ ids, r.Asks action ids ∧ Handler.pathId? ids = some id
  owner : ∃ grant user, w.store.checkAccess r.carrier = .ok grant ∧
    Handler.ownerOf? w.store grant.key = some user
  body : action = .updateKey → ∃ request, r.readJson Admin.keyDecoder = .ok request ∧
    (Text.trim (request.userId.getD "") = "" ∨
      (w.store.findUser? (Text.trim (request.userId.getD ""))).isSome)

theorem Admin.status_explain_iff {id : String} {e : StoreError} :
    (explain id e).status = 404 ↔ e = .keyNotFound ∨ e = .userNotFound := by
  cases e <;>
    simp [explain, noSuchKey, Problem.ofStore, Problem.notFound, Problem.badRequest,
      Problem.internal, Problem.rateLimited, Problem.unauthorized, Problem.invalidKey,
      Problem.withCode, Problem.withParam]

namespace Handler

variable {α : Type} {draw : Draw} {r : Request} {w : World} {id : String}

theorem answer_asOwner_of_owner {grant : Grant} {user : User}
    (hcheck : w.store.checkAccess r.carrier = .ok grant)
    (howner : ownerOf? w.store grant.key = some user) (act : Handler Response) :
    (asOwner r act).answer w = act.answer w := by
  rw [asOwner, answer_bind, requireOwner, bind_apply, requireKey_apply, hcheck]
  simp only [Except.mapError, bind_apply, ask, howner]
  rfl

theorem withId_of_pathId? {ids : List (String × String)} (h : pathId? ids = some id)
    (act : String → Handler Response) : withId ids act = act id := by
  cases ids with
  | nil => cases h
  | cons piece rest =>
    have hid : Percent.segmentText? (Utf8.encode piece.2) = some id := h
    simp only [withId, hid]

/-- A change is answered as one of what is not there exactly if the store finds no key. -/
theorem status_change_iff {op : Operation} {f : Store → Outcome α} {wrap : α → Reply}
    {other : String} (hruns : op.Runs f wrap) (hs : w.store.Sound) (hop : op.ByKeyId other)
    {finish : α → Handler Response} (hfinish : ∀ a v, ((finish a).answer v).1.status ≠ 404) :
    ((onStoreOr (Admin.explain id) f >>= fun a => persist draw >>= fun _ => finish a).answer
      w).1.status = 404 ↔ w.store.lookUp? op = none := by
  have huser := Store.answer_ne_userNotFound hs hop
  rw [← Store.answer_eq_keyNotFound_iff hs hop, answer_bind, onStoreOr]
  rw [hruns.answer] at huser ⊢
  rcases hf : f w.store with ⟨e | a, t⟩
  · rw [hf] at huser
    simp only [Except.map, ne_eq, Except.error.injEq] at huser ⊢
    change (Admin.explain id e).status = 404 ↔ _
    rw [Admin.status_explain_iff, or_iff_left huser]
  · simp only [Except.map, reduceCtorEq, iff_false]
    rw [answer_bind, persist]
    rcases hsaved : { w with store := t }.persist draw with ⟨e | ⟨⟩, v⟩
    · have hio := World.persist_answer { w with store := t } draw
      rw [hsaved] at hio
      rcases hio with hok | ⟨detail, hdetail⟩
      · cases hok
      cases hdetail
      simp only [hsaved]
      exact (by decide : (500 : Nat) ≠ 404)
    · simp only [hsaved]
      exact hfinish a v

/-! ## Actions on a key -/

theorem status_getKey_iff :
    ((Admin.getKey id).answer w).1.status = 404 ↔ w.store.findKeyById? id = none := by
  rw [Admin.getKey, answer_bind, Admin.findKey, bind_apply]
  simp only [ask]
  cases w.store.findKeyById? id with
  | none => exact iff_of_true rfl rfl
  | some key => exact iff_of_false (by decide : (200 : Nat) ≠ 404) (Option.some_ne_none key)

theorem status_deleteKey_iff (hs : w.store.Sound) :
    ((Admin.deleteKey draw id).answer w).1.status = 404 ↔ w.store.findKeyById? id = none := by
  rw [Admin.deleteKey, status_change_iff (Operation.runs_deleteKey id) hs (rfl : id = id)]
  · rfl
  · exact fun _ _ => (by decide : (204 : Nat) ≠ 404)

theorem status_resetUsage_iff (hs : w.store.Sound) :
    ((Admin.resetUsage draw id).answer w).1.status = 404 ↔ w.store.keyWithId? id = none := by
  refine status_change_iff (Operation.runs_resetUsage id) hs (rfl : id = id) ?_
  intro key v
  rw [answer_bind]
  exact (by decide : (200 : Nat) ≠ 404)

theorem status_release_iff :
    ((Admin.release id).answer w).1.status = 404 ↔
      w.store.findKeyById? id = none ∨ w.store.keyWithId? id = none := by
  rw [Admin.release, answer_bind, Admin.findKey, bind_apply]
  simp only [ask]
  cases w.store.findKeyById? id with
  | none => exact iff_of_true rfl (.inl rfl)
  | some key =>
    change ((onStoreOr (Admin.explain id) (·.releaseSlots id) >>= _).answer w).1.status = 404 ↔ _
    rw [answer_bind, onStoreOr, Store.releaseSlots]
    cases hfound : w.store.keyWithId? id with
    | none => exact iff_of_true rfl (.inr rfl)
    | some found => exact iff_of_false (by decide : (200 : Nat) ≠ 404) (by simp)

theorem checkOwner_apply {request : Admin.KeyRequest}
    (h : Text.trim (request.userId.getD "") = "" ∨
      (w.store.findUser? (Text.trim (request.userId.getD ""))).isSome) :
    Admin.checkOwner request w = (.ok (), w) := by
  rw [Admin.checkOwner]
  by_cases hnamed : Text.trim (request.userId.getD "") = ""
  · rw [hnamed]
    rfl
  · obtain ⟨user, huser⟩ := Option.isSome_iff_exists.mp (h.resolve_left hnamed)
    rw [← String.isEmpty_iff] at hnamed
    simp only [if_neg hnamed, bind_apply, ask, huser]
    rfl

theorem status_updateKey_iff (hs : w.store.Sound) {request : Admin.KeyRequest}
    (hread : r.readJson Admin.keyDecoder = .ok request)
    (howner : Text.trim (request.userId.getD "") = "" ∨
      (w.store.findUser? (Text.trim (request.userId.getD ""))).isSome) :
    ((Admin.updateKey draw id r).answer w).1.status = 404 ↔
      w.store.keyWithId? (Text.trim id) = none := by
  have hbody : jsonBody Admin.keyDecoder r w = (.ok request, w) := by
    rw [jsonBody, hread]
    rfl
  rw [Admin.updateKey, answer_bind, hbody]
  dsimp only
  rw [answer_bind, checkOwner_apply howner]
  exact status_change_iff (Operation.runs_updateKey id _) hs ⟨rfl, KeyEdit.id_applyAll _⟩ fun _ _ =>
    (by decide : (200 : Nat) ≠ 404)

end Handler

namespace Service

variable {service : Service} {draw : Draw} {r : Request} {w : World} {id : String}

theorem status_handle_of_asks {action : Action} {ids : List (String × String)}
    (h : r.Asks action ids) : (service.handle draw r w).1.status =
      ((action.handler service draw ids r).answer w).1.status := by
  obtain ⟨route, hroute, haction⟩ := h
  rw [handle, hroute]
  dsimp only
  rw [Response.status_forMethod, Response.status_tellAllowed, Route.handler, haction]

theorem status_eq_notFound_iff (hs : w.store.Sound) {action : Action}
    (haction : action ∈ keyActions) (h : r.AsksAbout action id w) :
    (service.handle draw r w).1.status = 404 ↔ action.Misses w.store id := by
  obtain ⟨ids, hasks, hid⟩ := h.asks
  obtain ⟨grant, user, hcheck, howner⟩ := h.owner
  rw [status_handle_of_asks hasks]
  simp only [keyActions, List.mem_cons, List.not_mem_nil, or_false] at haction
  rcases haction with rfl | rfl | rfl | rfl | rfl <;>
    rw [Action.handler, Handler.answer_asOwner_of_owner hcheck howner,
      Handler.withId_of_pathId? hid, Action.Misses]
  · rw [Handler.status_getKey_iff, hs.findKeyById?_eq]
  · obtain ⟨request, hread, hnamed⟩ := h.body rfl
    exact Handler.status_updateKey_iff hs hread hnamed
  · rw [Handler.status_deleteKey_iff hs, hs.findKeyById?_eq]
  · exact Handler.status_resetUsage_iff hs
  · rw [Handler.status_release_iff, hs.findKeyById?_eq]

/-- The operations by an id agree on the key that it names exactly if the id has no blanks around
it, or no key has it with the blanks or without. Of the paths of the key, either none is found or
all are, exactly if a key has the id as it stands where one has it without blanks. -/
theorem key_ids_agree_iff (service : Service) (id : String) {w : World} (hs : w.store.Sound) :
    (w.store.AgreeOn id ↔
      Text.trim id = id ∨ ∀ key ∈ w.store.apiKeys, key.id ≠ id ∧ key.id ≠ Text.trim id) ∧
    ∀ (draws : Action → Draw) (requests : Action → Request),
      (∀ action ∈ keyActions, (requests action).AsksAbout action id w) →
      (((∀ action ∈ keyActions,
          (service.handle (draws action) (requests action) w).1.status = 404) ∨
        ∀ action ∈ keyActions,
          (service.handle (draws action) (requests action) w).1.status ≠ 404) ↔
      ((∃ key ∈ w.store.apiKeys, key.id = id) ↔
        ∃ key ∈ w.store.apiKeys, key.id = Text.trim id)) := by
  refine ⟨hs.agreeOn_iff.trans Store.keyWithId?_eq_trim_iff, ?_⟩
  intro draws requests hasks
  have hstatus : ∀ action ∈ keyActions,
      (service.handle (draws action) (requests action) w).1.status = 404 ↔
        action.Misses w.store id := fun action haction =>
    status_eq_notFound_iff hs haction (hasks action haction)
  have hall : (∀ action ∈ keyActions,
        (service.handle (draws action) (requests action) w).1.status = 404) ↔
      ∀ action ∈ keyActions, action.Misses w.store id := forall₂_congr hstatus
  have hnone : (∀ action ∈ keyActions,
        (service.handle (draws action) (requests action) w).1.status ≠ 404) ↔
      ∀ action ∈ keyActions, ¬ action.Misses w.store id :=
    forall₂_congr fun action haction => not_congr (hstatus action haction)
  rw [hall, hnone, ← Store.keyWithId?_isSome_iff, ← Store.keyWithId?_isSome_iff,
    ← Option.ne_none_iff_isSome, ← Option.ne_none_iff_isSome]
  simp only [keyActions, List.forall_mem_cons, Action.Misses]
  by_cases hplain : w.store.keyWithId? id = none <;>
    by_cases htrimmed : w.store.keyWithId? (Text.trim id) = none <;> simp [hplain, htrimmed]

/-- The owner's request for an action on the key with the id that this piece of a path spells. -/
def masterCall (piece : String) (action : Action) : Request :=
  let call (method path body : String) : Request :=
    ⟨method, ⟨"/admin/api-keys/" ++ piece ++ path, none⟩, [⟨"x-api-key", Utf8.encode "tk_master"⟩,
      ⟨"content-type", Utf8.encode "application/json"⟩], Utf8.encode body⟩
  match action with
  | .updateKey => call "PUT" "" "\x7b\"label\":\"door\"\x7d"
  | .deleteKey => call "DELETE" "" ""
  | .resetUsage => call "POST" "/reset-usage" ""
  | .release => call "POST" "/release" ""
  | _ => call "GET" "" ""

theorem asksAbout_masterCall :
    ∀ action ∈ keyActions, (masterCall "key_1" action).AsksAbout action "key_1" master := by
  have hasks : ∀ action ∈ keyActions, ∃ route ∈ routes,
      findRoute (masterCall "key_1" action).uri.path = some (route, [("key_id", "key_1")]) ∧
        route.action? (masterCall "key_1" action).method = some action := by
    decide +kernel
  have hid : Handler.pathId? [("key_id", "key_1")] = some "key_1" := by decide +kernel
  have howner : ∃ grant user,
      master.store.checkAccess (masterCall "key_1" .getKey).carrier = .ok grant ∧
        Handler.ownerOf? master.store grant.key = some user :=
    ⟨⟨{ ApiKey.fresh "tk_master" "" .epoch with
      id := "key_1", userId := "user_1", usedCount := 3 }, .apiKeyHeader⟩,
      _, by decide +kernel, rfl⟩
  intro action haction
  obtain ⟨route, -, hroute, hmethod⟩ := hasks action haction
  refine ⟨⟨_, ⟨route, hroute, hmethod⟩, hid⟩, ?_, ?_⟩
  · simp only [keyActions, List.mem_cons, List.not_mem_nil, or_false] at haction
    rcases haction with rfl | rfl | rfl | rfl | rfl <;> exact howner
  · rintro rfl
    have hbody : ((masterCall "key_1" .updateKey).readJson Admin.keyDecoder).toOption.map
        Admin.KeyRequest.userId = some none := by
      decide +kernel
    cases hread : (masterCall "key_1" .updateKey).readJson Admin.keyDecoder with
    | error p =>
      rw [hread] at hbody
      cases hbody
    | ok request =>
      rw [hread] at hbody
      refine ⟨request, rfl, .inl ?_⟩
      rw [Option.some.inj hbody]
      decide +kernel

theorem key_ids_agree_master :
    master.store.Sound ∧ master.store.AgreeOn "key_1" ∧ ∀ action ∈ keyActions,
      (masterService.handle masterDraw (masterCall "key_1" action) master).1.status ≠ 404 := by
  have hs : master.store.Sound := by decide +kernel
  obtain ⟨hagree, hpaths⟩ := key_ids_agree_iff masterService "key_1" hs
  have htrim : Text.trim "key_1" = "key_1" := by decide +kernel
  refine ⟨hs, hagree.mpr (.inl htrim), ?_⟩
  rcases (hpaths (fun _ => masterDraw) (masterCall "key_1") asksAbout_masterCall).mpr
    (by rw [htrim]) with hall | hnone
  · have hget := hall .getKey (by decide)
    exact absurd hget (by decide +kernel)
  · exact hnone

/-- With blanks around it, the id is found to name the key, and the key is not found to be reset. -/
theorem key_ids_disagree_padded :
    master.store.findKeyById? " key_1 " = master.store.keyWithId? "key_1" ∧
      (master.store.findKeyById? " key_1 ").isSome ∧
      (master.store.resetUsage " key_1 ").1 = .error .keyNotFound ∧
      (masterService.handle masterDraw (masterCall "%20key_1%20" .getKey) master).1.status = 200 ∧
      (masterService.handle masterDraw (masterCall "%20key_1%20" .resetUsage)
        master).1.status = 404 := by
  decide +kernel

end Service

end Turnstile
