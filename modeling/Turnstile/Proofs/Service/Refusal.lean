import Turnstile.Proofs.Gate.Usage
import Turnstile.Proofs.Service.Authorization

/-! What a refusal tells. A request whose credential opens nothing is refused before anything but
its credential is looked at, so one with the credential of a key that may not be called, or not in
this way, gets the answer that it would get if there were no such key, and changes nothing. -/

namespace Turnstile

open Http (Problem Request Response)

/-! ## Guarded routes -/

/-- The action begins with an access check. -/
def Action.isGuarded : Action → Bool
  | .health | .ready | .live | .login => false
  | _ => true

/-- The route is one of `/v1`, `/admin`, `/portal/me` or `/portal/usage`. -/
def Route.isGuarded (route : Route) : Bool :=
  match route.pieces with
  | .literal "v1" :: _ | .literal "admin" :: _ => true
  | [.literal "portal", .literal "me"] | [.literal "portal", .literal "usage"] => true
  | _ => false

theorem Route.isGuarded_of_action? {route : Route} (hroute : route ∈ routes)
    (hguard : route.isGuarded = true) {method : String} {action : Action}
    (haction : route.action? method = some action) : action.isGuarded = true := by
  have htable : ∀ route ∈ routes, route.isGuarded = true →
      ∀ entry ∈ route.actions, entry.2.isGuarded = true := by
    decide
  obtain ⟨verb, hmem⟩ := mem_actions_of_action? haction
  exact htable route hroute hguard _ hmem

/-! ## Refused checks -/

namespace Handler

variable {service : Service} {draw : Draw} {r : Request} {w : World} {e : AccessError}

theorem answer_requireKey_bind (h : w.store.checkAccess r.carrier = .error e)
    (rest : Grant → Handler Response) :
    (requireKey r >>= rest).answer w = ((Problem.ofAccess e).toResponse, w) := by
  rw [answer_bind, requireKey_apply, h]
  rfl

theorem answer_asOwner (h : w.store.checkAccess r.carrier = .error e) (act : Handler Response) :
    (asOwner r act).answer w = ((Problem.ofAccess e).toResponse, w) := by
  rw [asOwner, requireOwner, bind_assoc]
  exact answer_requireKey_bind h _

theorem answer_throughGate (h : w.store.checkAccess r.carrier = .error e)
    (answer : Grant → Response) :
    (throughGate service draw r answer).answer w = ((Problem.ofAccess e).toResponse, w) := by
  rw [throughGate, answer_bind, Gate.enter, h]

theorem answer_guarded (h : w.store.checkAccess r.carrier = .error e) {action : Action}
    (hguard : action.isGuarded = true) (ids : List (String × String)) :
    (action.handler service draw ids r).answer w = ((Problem.ofAccess e).toResponse, w) := by
  cases action with
  | health | ready | live | login => cases hguard
  | checkAccess => exact answer_throughGate h fun grant => .json 200 (Access.report grant)
  | me =>
    rw [Action.handler, Portal.me]
    exact answer_requireKey_bind h _
  | portalUsage =>
    rw [Action.handler, Portal.usage]
    exact answer_requireKey_bind h _
  | _ =>
    rw [Action.handler]
    exact answer_asOwner h _

end Handler

namespace Service

variable {service : Service} {draw : Draw} {r : Request} {w : World}

/-- What a guarded route answers to a request that does not pass the access check. A method that it
does not know is refused as such, except behind the gate. -/
def refusal (route : Route) (r : Request) (e : AccessError) : Response :=
  forMethod r.method (route.tellAllowed r.method
    (if (route.action? r.method).isSome || route.isGated then (Problem.ofAccess e).toResponse
      else .empty 405))

theorem handle_of_error {route : Route} {ids : List (String × String)} {e : AccessError}
    (hroute : findRoute r.uri.path = some (route, ids)) (hguard : route.isGuarded = true)
    (h : w.store.checkAccess r.carrier = .error e) :
    service.handle draw r w = (refusal route r e, w) := by
  obtain ⟨hmem, -⟩ := Route.find?_of_findRoute hroute
  rw [handle, hroute, refusal]
  dsimp only
  rw [Route.handler]
  cases haction : route.action? r.method with
  | some action =>
    simp only [Handler.answer_guarded h (Route.isGuarded_of_action? hmem hguard haction),
      Option.isSome_some, Bool.true_or, if_true]
  | none =>
    simp only [Option.isSome_none, Bool.false_or]
    cases route.isGated with
    | true => simp only [if_true, Handler.answer_throughGate h]
    | false => rfl

end Service

/-! ## Stores with and without a key -/

namespace Store

variable {s : Store} {key : ApiKey} {r : Request}

/-- The store without the key and its requests in flight. -/
def without (s : Store) (key : ApiKey) : Store :=
  { s.withApiKeys (s.apiKeys.erase key) with inFlight := s.inFlight.remove key.id }

/-- The request presents the credential of a stored key that is disabled or does not trust the place
of the credential. -/
structure Refuses (s : Store) (r : Request) (key : ApiKey) : Prop where
  stored : key ∈ s.apiKeys
  presented : ∃ source, r.carrier.extract = some ⟨key.credential, source⟩ ∧
    (key.enabled = false ∨ key.compatibilityMode = false ∧ source.isStrict = false)

theorem checkAccess_of_refuses (hdistinct : s.DistinctCredentials) (h : s.Refuses r key) :
    s.checkAccess r.carrier = .error .invalidCredential := by
  obtain ⟨source, hextract, hrefused⟩ := h.presented
  refine checkAccess_of_not_accepts hextract ?_
  intro other hother haccepts
  -- the credential leads to no other key
  have hsame : other = key :=
    List.inj_on_of_nodup_map hdistinct hother h.stored haccepts.credential
  subst hsame
  rcases hrefused with hdisabled | ⟨hmode, hplace⟩
  · rw [haccepts.enabled] at hdisabled
    cases hdisabled
  · rcases haccepts.trusted with hstrict | hopted
    · rw [hstrict] at hplace
      cases hplace
    · rw [hopted] at hmode
      cases hmode

theorem checkAccess_without (hdistinct : s.DistinctCredentials) (h : s.Refuses r key) :
    (s.without key).checkAccess r.carrier = .error .invalidCredential := by
  obtain ⟨source, hextract, -⟩ := h.presented
  refine checkAccess_of_not_accepts hextract ?_
  intro other hother haccepts
  obtain ⟨hne, hmem⟩ := (List.Nodup.of_map _ hdistinct).mem_erase_iff.mp hother
  exact hne (List.inj_on_of_nodup_map hdistinct hmem h.stored haccepts.credential)

/-- A key whose id can be looked up is removed by its deletion. -/
theorem deleteKey_eq_without (hids : (s.apiKeys.map ApiKey.id).Nodup) (hmem : key ∈ s.apiKeys)
    (htrim : Text.trim key.id = key.id) (hne : key.id ≠ "") :
    (s.deleteKey key.id).2 = s.without key := by
  have hsome : key.id.isEmpty = false := by simpa using hne
  have hstored : s.apiKeys.any (·.id == key.id) = true :=
    List.any_eq_true.mpr ⟨key, hmem, beq_self_eq_true key.id⟩
  have hothers : s.apiKeys.filter (·.id != key.id) = s.apiKeys.erase key := by
    rw [(List.Nodup.of_map _ hids).erase_eq_filter]
    refine List.filter_congr ?_
    intro other hother
    rw [Bool.eq_iff_iff, bne_iff_ne, bne_iff_ne]
    exact not_congr ⟨List.inj_on_of_nodup_map hids hother hmem, fun h => h ▸ rfl⟩
  simp only [deleteKey, htrim, hsome, hstored, hothers, without, Bool.false_eq_true, if_false,
    if_true]

end Store

/-- A request with the credential of a key that may not be called is answered as if the key were
not there, and changes nothing, whatever else is stored about the key. Where the id of the key can
be looked up, the store without it is the one that its deletion leaves. -/
theorem Service.refusal_hides_key (service : Service) (draw : Draw) (r : Request) (w : World)
    (key : ApiKey) (route : Route) (ids : List (String × String))
    (hids : (w.store.apiKeys.map ApiKey.id).Nodup) (hdistinct : w.store.DistinctCredentials)
    (hroute : findRoute r.uri.path = some (route, ids)) (hguard : route.isGuarded = true)
    (h : w.store.Refuses r key) :
    service.handle draw r w = (refusal route r .invalidCredential, w) ∧
      service.handle draw r { w with store := w.store.without key } =
        (refusal route r .invalidCredential, { w with store := w.store.without key }) ∧
      (Text.trim key.id = key.id → key.id ≠ "" →
        w.store.without key = (w.store.deleteKey key.id).2) := by
  refine ⟨?_, ?_, ?_⟩
  · exact handle_of_error hroute hguard (Store.checkAccess_of_refuses hdistinct h)
  · exact handle_of_error hroute hguard (Store.checkAccess_without hdistinct h)
  · intro htrim hne
    exact (Store.deleteKey_eq_without hids h.stored htrim hne).symm

/-- The owner's key, disabled with a request open and its quota used up. -/
def lockedKey : ApiKey :=
  { ApiKey.fresh "tk_locked" "owner" .epoch with
    id := "key_1", userId := "usr_1", enabled := false, totalLimit := 1, usedCount := 1 }

def lockedStore : Store :=
  { Store.stocked [lockedKey, { ApiKey.fresh "tk_open" "" .epoch with id := "key_2" }] with
    inFlight := [("key_1", 1)] }

def knocking : Request :=
  ⟨"DELETE", ⟨"/admin/users/usr_1", some "key=tk_open"⟩,
    [⟨"authorization", Utf8.encode "Bearer tk_locked"⟩], []⟩

def userRoute : Route :=
  ⟨[.literal "admin", .literal "users", .id "user_id"],
    [("GET", .getUser), ("PUT", .updateUser), ("DELETE", .deleteUser)]⟩

def knockingDraw : Draw := ⟨.epoch, "usr_2", "key_3", "tk_3", [], "tag", "request"⟩

theorem Service.refusal_hides_key_locked :
    findRoute knocking.uri.path = some (userRoute, [("user_id", "usr_1")]) ∧
      lockedStore.Refuses knocking lockedKey ∧
      (Gateway.doorService.handle knockingDraw knocking ⟨lockedStore, .empty⟩).1 =
        (Gateway.doorService.handle knockingDraw knocking
          ⟨(lockedStore.deleteKey "key_1").2, .empty⟩).1 ∧
      (Gateway.doorService.handle knockingDraw knocking ⟨lockedStore, .empty⟩).1.status = 401 := by
  have hroute : findRoute knocking.uri.path = some (userRoute, [("user_id", "usr_1")]) := by
    decide +kernel
  have hrefuses : lockedStore.Refuses knocking lockedKey :=
    ⟨List.mem_cons_self, .authorization, by decide +kernel, .inl rfl⟩
  obtain ⟨hthere, hgone, hdeleted⟩ := Service.refusal_hides_key Gateway.doorService knockingDraw
    knocking ⟨lockedStore, .empty⟩ lockedKey userRoute _ (by decide) (by decide) hroute rfl hrefuses
  rw [hdeleted (by decide +kernel) (by decide)] at hgone
  refine ⟨hroute, hrefuses, ?_, ?_⟩
  · rw [hthere]
    exact (congrArg Prod.fst hgone).symm
  · rw [hthere]
    rfl

end Turnstile
