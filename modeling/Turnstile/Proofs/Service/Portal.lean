import Turnstile.Proofs.Access.Check
import Turnstile.Proofs.Service.Handler
import Turnstile.Proofs.Service.Route
import Turnstile.Proofs.Store.Users

/-! What the portal shows. The answer to a key holder depends on the presented key, on its user and
on the keys of that user, the answer to a login on the user of that name and the keys of that user.
Of two stores that agree on these the portal makes no difference, whatever else they hold, and every
key in an answer is the calling key or belongs to the caller's user. -/

namespace Turnstile

open Http (Problem Request Response)

namespace Store

variable {s t : Store}

/-- The keys that the user with that id owns, in their order. -/
def ownedBy (s : Store) (userId : String) : List ApiKey := s.apiKeys.filter (·.userId == userId)

theorem keysOfUser_eq (s : Store) (userId : String) :
    s.keysOfUser userId =
      if Text.trim userId = "" then [] else s.ownedBy (Text.trim userId) := by
  simp only [keysOfUser, ownedBy, String.isEmpty_iff]

/-- The credential leads to one key in both stores. If it has a user, the stores agree on that user,
on the keys of that user and on the slots of these, and if it has none, on its own slots. -/
structure AgreeOnKey (s t : Store) (credential : String) : Prop where
  key : s.findKey? credential = t.findKey? credential
  user : ∀ key, s.findKey? credential = some key → Text.trim key.userId ≠ "" →
    s.users.find? (·.id == Text.trim key.userId) = t.users.find? (·.id == Text.trim key.userId)
  keys : ∀ key, s.findKey? credential = some key → Text.trim key.userId ≠ "" →
    s.ownedBy (Text.trim key.userId) = t.ownedBy (Text.trim key.userId) ∧
      ∀ k ∈ s.ownedBy (Text.trim key.userId), s.inFlightOf k.id = t.inFlightOf k.id
  own : ∀ key, s.findKey? credential = some key → key.userId = "" →
    s.inFlightOf key.id = t.inFlightOf key.id

/-- The name leads to one user in both stores, with the same keys. -/
structure AgreeOnName (s t : Store) (username : String) : Prop where
  user : s.findUserByName? username = t.findUserByName? username
  keys : ∀ user, s.findUserByName? username = some user → Text.trim user.id ≠ "" →
    s.ownedBy (Text.trim user.id) = t.ownedBy (Text.trim user.id)

end Store

namespace Portal

variable {service : Service} {draw : Draw} {r : Request} {w v : World}

/-! ## Answers in full -/

def meAnswer (s : Store) (grant : Grant) : Response :=
  .json 200 (.obj (("key", grant.key.view) ::
    (s.findUser? grant.key.userId).toList.map fun u => ("user", u.view)))

def usageAnswer (s : Store) (grant : Grant) : Response :=
  .json 200 (.obj [("usage", .arr ((usageOf s (reported s grant.key)).map Usage.view))])

def loginAnswer (s : Store) (user : User) : Response :=
  .json 200
    (.obj [("user", user.view), ("api_keys", .arr ((s.keysOfUser user.id).map ApiKey.view))])

theorem answer_me (r : Request) (w : World) :
    (me r).answer w =
      match w.store.checkAccess r.carrier with
      | .ok grant => (meAnswer w.store grant, w)
      | .error e => ((Problem.ofAccess e).toResponse, w) := by
  rw [me, Handler.answer_bind, Handler.requireKey_apply]
  cases w.store.checkAccess r.carrier <;> rfl

theorem answer_usage (r : Request) (w : World) :
    (usage r).answer w =
      match w.store.checkAccess r.carrier with
      | .ok grant => (usageAnswer w.store grant, w)
      | .error e => ((Problem.ofAccess e).toResponse, w) := by
  rw [usage, Handler.answer_bind, Handler.requireKey_apply]
  cases w.store.checkAccess r.carrier <;> rfl

theorem answer_login (service : Service) (draw : Draw) (r : Request) (w : World) :
    ((login service draw r).answer w).1 =
      match r.readJson loginDecoder with
      | .error p => p.toResponse
      | .ok (name, password) =>
        match (w.store.authenticate service.hasher draw.salt name password).1 with
        | .ok user => loginAnswer w.store user
        | .error e => (Problem.ofStore e).toResponse := by
  rw [login, Handler.answer_bind, Handler.jsonBody]
  cases r.readJson loginDecoder with
  | error p => rfl
  | ok fields =>
    obtain ⟨name, password⟩ := fields
    have hsame := Store.sameData_authenticate (s := w.store) service.hasher draw.salt name password
    change ((Handler.onStore (·.authenticate service.hasher draw.salt name password) >>= _).answer
      w).1 = _
    rw [Handler.answer_bind, Handler.onStore, Handler.onStoreOr]
    dsimp only
    generalize w.store.authenticate service.hasher draw.salt name password = outcome at hsame ⊢
    obtain ⟨e | user, s⟩ := outcome
    · rfl
    · have hrecords : s.records = w.store.records := hsame.records
      have hkeys : s.keysOfUser user.id = w.store.keysOfUser user.id := by
        simp only [Store.keysOfUser, Store.apiKeys, hrecords]
      change _ = loginAnswer w.store user
      rw [loginAnswer, ← hkeys]
      rfl

/-! ## Stores that agree -/

theorem checkAccess_congr {s t : Store} {c : Carrier}
    (h : ∀ found, c.extract = some found → s.findKey? found.value = t.findKey? found.value) :
    s.checkAccess c = t.checkAccess c := by
  unfold Store.checkAccess
  cases hextract : c.extract with
  | none => rfl
  | some found => simp only [h found hextract]

/-- The presented credential leads to the granted key. -/
theorem agreeOnKey_of_checkAccess {s t : Store} {c : Carrier} {grant : Grant}
    (hagree : ∀ found, c.extract = some found → s.AgreeOnKey t found.value)
    (h : s.checkAccess c = .ok grant) :
    s.findKey? grant.key.credential = some grant.key ∧ s.AgreeOnKey t grant.key.credential :=
  ⟨Store.findKey?_of_checkAccess h, hagree _ (Store.accepts_of_checkAccess h).1⟩

theorem meAnswer_congr {s t : Store} {grant : Grant}
    (hkey : s.findKey? grant.key.credential = some grant.key)
    (hagree : s.AgreeOnKey t grant.key.credential) : meAnswer s grant = meAnswer t grant := by
  have huser : s.findUser? grant.key.userId = t.findUser? grant.key.userId := by
    rw [Store.findUser?_eq, Store.findUser?_eq]
    split
    · rfl
    · rename_i hfilled
      exact hagree.user grant.key hkey hfilled
  rw [meAnswer, huser, meAnswer]

theorem usageOf_congr {s t : Store} {keys : List ApiKey}
    (h : ∀ k ∈ keys, s.inFlightOf k.id = t.inFlightOf k.id) : usageOf s keys = usageOf t keys :=
  List.map_congr_left fun k hk => congrArg (Usage.of k) (h k hk)

theorem usageAnswer_congr {s t : Store} {grant : Grant}
    (hkey : s.findKey? grant.key.credential = some grant.key)
    (hagree : s.AgreeOnKey t grant.key.credential) : usageAnswer s grant = usageAnswer t grant := by
  have hreport : usageOf s (reported s grant.key) = usageOf t (reported t grant.key) := by
    unfold reported
    split
    · rename_i hnobody
      refine usageOf_congr fun k hk => ?_
      rw [List.mem_singleton.mp hk]
      exact hagree.own grant.key hkey (String.isEmpty_iff.mp hnobody)
    · rw [Store.keysOfUser_eq, Store.keysOfUser_eq]
      split
      · rfl
      · rename_i hfilled
        obtain ⟨hkeys, hslots⟩ := hagree.keys grant.key hkey hfilled
        rw [← hkeys]
        exact usageOf_congr hslots
  rw [usageAnswer, hreport, usageAnswer]

theorem loginAnswer_congr {s t : Store} {username : String} {user : User}
    (huser : s.findUserByName? username = some user) (hagree : s.AgreeOnName t username) :
    loginAnswer s user = loginAnswer t user := by
  have hkeys : s.keysOfUser user.id = t.keysOfUser user.id := by
    rw [Store.keysOfUser_eq, Store.keysOfUser_eq]
    split
    · rfl
    · rename_i hfilled
      exact hagree.keys user huser hfilled
  rw [loginAnswer, hkeys, loginAnswer]

theorem answer_me_congr
    (h : ∀ found, r.carrier.extract = some found → w.store.AgreeOnKey v.store found.value) :
    ((me r).answer w).1 = ((me r).answer v).1 := by
  rw [answer_me, answer_me, ← checkAccess_congr fun found hfound => (h found hfound).key]
  cases hcheck : w.store.checkAccess r.carrier with
  | error e => rfl
  | ok grant =>
    obtain ⟨hkey, hagree⟩ := agreeOnKey_of_checkAccess h hcheck
    exact meAnswer_congr hkey hagree

theorem answer_usage_congr
    (h : ∀ found, r.carrier.extract = some found → w.store.AgreeOnKey v.store found.value) :
    ((usage r).answer w).1 = ((usage r).answer v).1 := by
  rw [answer_usage, answer_usage, ← checkAccess_congr fun found hfound => (h found hfound).key]
  cases hcheck : w.store.checkAccess r.carrier with
  | error e => rfl
  | ok grant =>
    obtain ⟨hkey, hagree⟩ := agreeOnKey_of_checkAccess h hcheck
    exact usageAnswer_congr hkey hagree

theorem answer_login_congr
    (h : ∀ name password, r.readJson loginDecoder = .ok (name, password) →
      w.store.AgreeOnName v.store name) :
    ((login service draw r).answer w).1 = ((login service draw r).answer v).1 := by
  rw [answer_login, answer_login]
  cases hread : r.readJson loginDecoder with
  | error p => rfl
  | ok fields =>
    obtain ⟨name, password⟩ := fields
    have hagree := h name password hread
    dsimp only
    rw [Store.authenticate_fst, Store.authenticate_fst,
      ← Store.loginCandidate?_congr hagree.user]
    cases hcandidate : w.store.loginCandidate? name with
    | none => rfl
    | some user =>
      have huser : w.store.findUserByName? name = some user :=
        (Option.filter_eq_some_iff.mp hcandidate).1
      dsimp only
      by_cases haccepted : service.hasher.verify password user.passwordHash = true
      · simp only [if_pos haccepted]
        exact loginAnswer_congr huser hagree
      · simp only [if_neg haccepted]

/-! ## What is told of -/

/-- An answer that tells of nothing but the caller: of the calling key or the user who logs in, and
of keys of the caller's user, all as the store holds them. -/
inductive Tells (s : Store) (r : Request) : Response → Prop
  | refused (e : AccessError) : Tells s r (Problem.ofAccess e).toResponse
  | unread {p : Problem} (h : r.readJson loginDecoder = .error p) : Tells s r p.toResponse
  | noLogin : Tells s r (Problem.ofStore .invalidCredentials).toResponse
  | otherMethod (allow : Option String) : Tells s r { Response.empty 405 with allow }
  | me {grant : Grant} (hgrant : s.checkAccess r.carrier = .ok grant) (user : Option User)
      (huser : ∀ u ∈ user, u ∈ s.users ∧ u.id = Text.trim grant.key.userId ∧ u.id ≠ "") :
      Tells s r (.json 200 (.obj (("key", grant.key.view) ::
        user.toList.map fun u => ("user", u.view))))
  | usage {grant : Grant} (hgrant : s.checkAccess r.carrier = .ok grant) (keys : List ApiKey)
      (hkeys : ∀ k ∈ keys, k ∈ s.apiKeys ∧
        (k = grant.key ∨ k.userId = Text.trim grant.key.userId ∧ k.userId ≠ "")) :
      Tells s r (.json 200 (.obj [("usage",
        .arr (keys.map fun k => (Usage.of k (s.inFlightOf k.id)).view))]))
  | login {name password : String} (hread : r.readJson loginDecoder = .ok (name, password))
      {user : User} (huser : s.findUserByName? name = some user) (keys : List ApiKey)
      (hkeys : ∀ k ∈ keys, k ∈ s.apiKeys ∧ k.userId = Text.trim user.id ∧ k.userId ≠ "") :
      Tells s r (.json 200 (.obj [("user", user.view),
        ("api_keys", .arr (keys.map ApiKey.view))]))

/-- The keys that are found for a user are keys of the store with that user's id, and nobody's keys
are found for a blank one. -/
theorem owner_of_keysOfUser {s : Store} {userId : String} {k : ApiKey}
    (h : k ∈ s.keysOfUser userId) :
    k ∈ s.apiKeys ∧ k.userId = Text.trim userId ∧ k.userId ≠ "" := by
  rw [Store.keysOfUser_eq] at h
  split at h
  · cases h
  · rename_i hfilled
    obtain ⟨hstored, howned⟩ := List.mem_filter.mp h
    have howner : k.userId = Text.trim userId := beq_iff_eq.mp howned
    exact ⟨hstored, howner, howner ▸ hfilled⟩

theorem tells_me (r : Request) (w : World) : Tells w.store r ((me r).answer w).1 := by
  rw [answer_me]
  cases hcheck : w.store.checkAccess r.carrier with
  | error e => exact .refused e
  | ok grant =>
    exact .me hcheck (w.store.findUser? grant.key.userId) fun u hu =>
      ⟨Store.mem_of_findUser? hu, Store.id_of_findUser? hu⟩

theorem tells_usage (r : Request) (w : World) : Tells w.store r ((usage r).answer w).1 := by
  rw [answer_usage]
  cases hcheck : w.store.checkAccess r.carrier with
  | error e => exact .refused e
  | ok grant =>
    have hstored : grant.key ∈ w.store.apiKeys :=
      Store.mem_of_findKey? (Store.findKey?_of_checkAccess hcheck)
    have htells := Tells.usage hcheck (reported w.store grant.key) fun k hk => by
      unfold reported at hk
      split at hk
      · have hself := List.mem_singleton.mp hk
        exact ⟨hself ▸ hstored, .inl hself⟩
      · obtain ⟨hmem, howner⟩ := owner_of_keysOfUser hk
        exact ⟨hmem, .inr howner⟩
    dsimp only
    rw [usageAnswer, usageOf, List.map_map]
    exact htells

theorem tells_login (service : Service) (draw : Draw) (r : Request) (w : World) :
    Tells w.store r ((login service draw r).answer w).1 := by
  rw [answer_login]
  cases hread : r.readJson loginDecoder with
  | error p => exact .unread hread
  | ok fields =>
    obtain ⟨name, password⟩ := fields
    dsimp only
    rw [Store.authenticate_fst]
    cases hcandidate : w.store.loginCandidate? name with
    | none => exact .noLogin
    | some user =>
      have huser : w.store.findUserByName? name = some user :=
        (Option.filter_eq_some_iff.mp hcandidate).1
      dsimp only
      by_cases haccepted : service.hasher.verify password user.passwordHash = true
      · simp only [if_pos haccepted]
        exact .login hread huser _ fun k hk => owner_of_keysOfUser hk
      · simp only [if_neg haccepted]
        exact .noLogin

end Portal

/-! ## Requests -/

namespace Service

variable (service : Service) (draw : Draw) {r : Request} {w v : World}

/-- Outside the gate, a request is answered by the action of its method or told which there are. -/
theorem response_of_open {route : Route} {ids : List (String × String)}
    (h : findRoute r.uri.path = some (route, ids)) (hopen : route.isGated = false) :
    (service.handle draw r w).1 = forMethod r.method
      (match route.action? r.method with
      | some action => ((action.handler service draw ids r).answer w).1
      | none => { Response.empty 405 with allow := some route.allowed }) := by
  rw [handle, h]
  simp only [Route.handler, Route.tellAllowed]
  cases route.action? r.method with
  | some action => rfl
  | none =>
    simp only [hopen, Bool.false_eq_true, if_false]
    rfl

section Single

variable {pieces : List Piece} {verb : String} {action : Action} {ids : List (String × String)}
  (hroute : findRoute r.uri.path = some (⟨pieces, [(verb, action)]⟩, ids))
  (hopen : Route.isGated ⟨pieces, [(verb, action)]⟩ = false)

include hroute hopen

/-- A path with one action answers with it or in a way that has nothing to do with the store. -/
theorem response_of_single :
    (∀ w, (service.handle draw r w).1 =
      forMethod r.method ((action.handler service draw ids r).answer w).1) ∨
    ∃ allow, ∀ w, (service.handle draw r w).1 =
      forMethod r.method { Response.empty 405 with allow } := by
  have hresponse (w : World) := response_of_open service draw (w := w) hroute hopen
  cases haction : Route.action? ⟨pieces, [(verb, action)]⟩ r.method with
  | some found =>
    obtain ⟨_, hmem⟩ := Route.mem_actions_of_action? haction
    obtain ⟨-, rfl⟩ := Prod.mk.inj (List.mem_singleton.mp hmem)
    left
    intro w
    rw [hresponse, haction]
  | none =>
    right
    refine ⟨some (Route.allowed ⟨pieces, [(verb, action)]⟩), fun w => ?_⟩
    rw [hresponse, haction]

theorem response_congr
    (hsame : ((action.handler service draw ids r).answer w).1 =
      ((action.handler service draw ids r).answer v).1) :
    (service.handle draw r w).1 = (service.handle draw r v).1 := by
  rcases response_of_single service draw hroute hopen with hanswer | ⟨allow, hother⟩
  · rw [hanswer, hanswer, hsame]
  · rw [hother, hother]

theorem response_tells
    (htells : Portal.Tells w.store r ((action.handler service draw ids r).answer w).1) :
    ∃ response, Portal.Tells w.store r response ∧
      (service.handle draw r w).1 = forMethod r.method response := by
  rcases response_of_single service draw hroute hopen with hanswer | ⟨allow, hother⟩
  · exact ⟨_, htells, hanswer w⟩
  · exact ⟨_, .otherMethod allow, hother w⟩

end Single

theorem findRoute_me {path : String} (h : path = "/portal/me") : findRoute path =
    some (⟨[.literal "portal", .literal "me"], [("GET", .me)]⟩, []) := by
  subst h
  decide +kernel

theorem findRoute_usage {path : String} (h : path = "/portal/usage") : findRoute path =
    some (⟨[.literal "portal", .literal "usage"], [("GET", .portalUsage)]⟩, []) := by
  subst h
  decide +kernel

theorem findRoute_login {path : String} (h : path = "/portal/login") : findRoute path =
    some (⟨[.literal "portal", .literal "login"], [("POST", .login)]⟩, []) := by
  subst h
  decide +kernel

/-- What the portal answers is the same for stores that agree on the presented key, its user and the
keys of that user, or on the user of the given name and that user's keys, and tells of nothing
else. -/
theorem portal_shows_own (r : Request) (w v : World) :
    (r.uri.path = "/portal/me" ∨ r.uri.path = "/portal/usage" →
      (∀ found, r.carrier.extract = some found → w.store.AgreeOnKey v.store found.value) →
      (service.handle draw r w).1 = (service.handle draw r v).1) ∧
    (r.uri.path = "/portal/login" →
      (∀ name password, r.readJson Portal.loginDecoder = .ok (name, password) →
        w.store.AgreeOnName v.store name) →
      (service.handle draw r w).1 = (service.handle draw r v).1) ∧
    (r.uri.path = "/portal/me" ∨ r.uri.path = "/portal/usage" ∨ r.uri.path = "/portal/login" →
      ∃ response, Portal.Tells w.store r response ∧
        (service.handle draw r w).1 = forMethod r.method response) := by
  refine ⟨?_, ?_, ?_⟩
  · rintro (hpath | hpath) hagree
    · exact response_congr service draw (findRoute_me hpath) rfl
        (Portal.answer_me_congr hagree)
    · exact response_congr service draw (findRoute_usage hpath) rfl
        (Portal.answer_usage_congr hagree)
  · intro hpath hagree
    exact response_congr service draw (findRoute_login hpath) rfl
      (Portal.answer_login_congr hagree)
  · rintro (hpath | hpath | hpath)
    · exact response_tells service draw (findRoute_me hpath) rfl (Portal.tells_me r w)
    · exact response_tells service draw (findRoute_usage hpath) rfl (Portal.tells_usage r w)
    · exact response_tells service draw (findRoute_login hpath) rfl
        (Portal.tells_login service draw r w)

def tenant : User := ⟨"usr_1", "ada", "word", .user, false, .epoch⟩

def tenantKey : ApiKey :=
  { ApiKey.fresh "tk_ada" "front" .epoch with id := "key_1", userId := "usr_1" }

/-- A house with one tenant, two keys of that tenant, and others. -/
def house (users : List User) (keys : List ApiKey) (inFlight : InFlight) : World where
  store := { Store.new none .epoch with
    records := { RecordSet.empty .epoch with
      users := users ++ [tenant]
      apiKeys := tenantKey :: keys ++
        [{ ApiKey.fresh "tk_back" "back" .epoch with id := "key_2", userId := "usr_1" }] }
    inFlight := ("key_1", 1) :: inFlight }
  files := .empty

def emptyHouse : World := house [] [] []

def fullHouse : World :=
  house [⟨"usr_2", "grace", "secret", .owner, false, .epoch⟩]
    [{ ApiKey.fresh "tk_grace" "" .epoch with id := "key_3", userId := "usr_2" },
      { ApiKey.fresh "tk_porter" "" .epoch with id := "key_4" }] [("key_3", 2), ("key_4", 1)]

def houseRequest (method path body : String) : Request :=
  ⟨method, ⟨path, none⟩, [⟨"x-api-key", Utf8.encode "tk_ada"⟩,
    ⟨"content-type", Utf8.encode "application/json"⟩], Utf8.encode body⟩

def houseLogin : Request :=
  houseRequest "POST" "/portal/login" "\x7b\"username\":\" Ada \",\"password\":\"word\"\x7d"

theorem agreeOnKey_house : fullHouse.store.AgreeOnKey emptyHouse.store "tk_ada" := by
  have hkey : fullHouse.store.findKey? "tk_ada" = some tenantKey := by decide +kernel
  constructor
  case key => decide +kernel
  case user =>
    intro key hfound _
    cases hkey.symm.trans hfound
    decide +kernel
  case keys =>
    intro key hfound _
    cases hkey.symm.trans hfound
    decide +kernel
  case own =>
    intro key hfound hnobody
    cases hkey.symm.trans hfound
    exact absurd hnobody (by decide)

theorem agreeOnName_house : fullHouse.store.AgreeOnName emptyHouse.store " Ada " := by
  have huser : fullHouse.store.findUserByName? " Ada " = some tenant := by decide +kernel
  constructor
  case user => decide +kernel
  case keys =>
    intro user hfound _
    cases huser.symm.trans hfound
    decide +kernel

def houseService : Service :=
  ⟨⟨fun _ password => .ok password, fun password hash => password == hash⟩, false⟩

def houseDraw : Draw := ⟨.epoch, "usr_9", "key_9", "tk_9", [], "tag", "request"⟩

def houseUsage : Request := houseRequest "GET" "/portal/usage" ""

/-- The other user and the key without one are not seen, neither with the tenant's key nor by the
tenant's login. -/
theorem portal_shows_own_house :
    (houseService.handle houseDraw houseUsage fullHouse).1 =
        (houseService.handle houseDraw houseUsage emptyHouse).1 ∧
      (houseService.handle houseDraw houseLogin fullHouse).1 =
        (houseService.handle houseDraw houseLogin emptyHouse).1 ∧
      (houseService.handle houseDraw houseUsage fullHouse).1.status = 200 ∧
      (houseService.handle houseDraw houseLogin fullHouse).1.status = 200 ∧
      ∃ response, Portal.Tells fullHouse.store houseUsage response ∧
        (houseService.handle houseDraw houseUsage fullHouse).1 = response := by
  have hpresented : houseUsage.carrier.extract = some ⟨"tk_ada", .apiKeyHeader⟩ := by
    decide +kernel
  have hsent : houseLogin.readJson Portal.loginDecoder = .ok (" Ada ", "word") := by
    decide +kernel
  obtain ⟨husage, -, htells⟩ :=
    portal_shows_own houseService houseDraw houseUsage fullHouse emptyHouse
  obtain ⟨-, hlogin, -⟩ := portal_shows_own houseService houseDraw houseLogin fullHouse emptyHouse
  refine ⟨husage (.inr rfl) ?_, hlogin rfl ?_, by decide +kernel, by decide +kernel, ?_⟩
  · intro found hfound
    cases hpresented.symm.trans hfound
    exact agreeOnKey_house
  · intro name password hread
    cases hsent.symm.trans hread
    exact agreeOnName_house
  · exact htells (.inr (.inl rfl))

end Service
end Turnstile
