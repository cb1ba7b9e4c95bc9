import Turnstile.Proofs.Gate.Usage
import Turnstile.Proofs.Service.Route
import Turnstile.Proofs.Store.Hashes

/-! What callers learn of password hashes. Two worlds that differ in hashes answer every request
alike and differ in hashes alone afterwards, save for a login, where the verdict on the password is
told. A handler is followed in both worlds at once: its parts give related answers, and what is
built from related answers is one response. -/

namespace Turnstile

open Http (Problem Request Response)

/-- The stores differ in password hashes, and the files in what is in them. -/
structure World.SameButHashes (w v : World) : Prop where
  store : w.store.SameButHashes v.store
  files : w.files.outline = v.files.outline

/-! ## Answers built from users -/

theorem Store.LikeUser.view {u u' : User} (h : Store.LikeUser u u') : u.view = u'.view := by
  have hview := congrArg User.view h
  exact hview

theorem User.map_view_congr {us us' : List User}
    (h : us.map User.veiled = us'.map User.veiled) : us.map User.view = us'.map User.view := by
  have hviews := congrArg (List.map User.view) h
  rwa [List.map_map, List.map_map] at hviews

namespace Handler

variable {α β : Type} {R : α → α → Prop} {S : β → β → Prop}

/-- The same problem, or two answers that are related, in worlds that differ in hashes. -/
inductive AlikeAnswers (R : α → α → Prop) :
    Except Problem α × World → Except Problem α × World → Prop
  | ok {a b : α} {w v : World} (hanswer : R a b) (hworlds : w.SameButHashes v) :
      AlikeAnswers R (.ok a, w) (.ok b, v)
  | error (p : Problem) {w v : World} (hworlds : w.SameButHashes v) :
      AlikeAnswers R (.error p, w) (.error p, v)

/-- In worlds that differ in hashes, the two handlers give related answers. -/
def Alike (R : α → α → Prop) (h h' : Handler α) : Prop :=
  ∀ w v : World, w.SameButHashes v → AlikeAnswers R (h w) (h' v)

/-! ## Parts of handlers -/

theorem alike_pure {a b : α} (h : R a b) : Alike R (pure a) (pure b) :=
  fun _ _ hworlds => .ok h hworlds

theorem alike_fail (p : Problem) : Alike R (fail p) (fail p) :=
  fun _ _ hworlds => .error p hworlds

theorem alikeAnswers_bind {h h' : Handler α} {rest rest' : α → Handler β} {w v : World}
    (hfirst : AlikeAnswers R (h w) (h' v)) (hrest : ∀ a b, R a b → Alike S (rest a) (rest' b)) :
    AlikeAnswers S ((h >>= rest) w) ((h' >>= rest') v) := by
  rw [bind_apply, bind_apply]
  generalize h w = answer at hfirst ⊢
  generalize h' v = answer' at hfirst ⊢
  cases hfirst with
  | ok hanswer hworlds => exact hrest _ _ hanswer _ _ hworlds
  | error p hworlds => exact .error p hworlds

theorem alike_bind {h h' : Handler α} {rest rest' : α → Handler β} (hfirst : Alike R h h')
    (hrest : ∀ a b, R a b → Alike S (rest a) (rest' b)) :
    Alike S (h >>= rest) (h' >>= rest') :=
  fun w v hworlds => alikeAnswers_bind (hfirst w v hworlds) hrest

/-- What follows one answer in both worlds. -/
theorem alike_bind_eq {h : Handler α} {rest : α → Handler β} (hfirst : Alike Eq h h)
    (hrest : ∀ a, Alike S (rest a) (rest a)) : Alike S (h >>= rest) (h >>= rest) := by
  refine alike_bind hfirst ?_
  rintro a _ rfl
  exact hrest a

theorem alike_ask {question : Store → α}
    (h : ∀ s t, s.SameButHashes t → R (question s) (question t)) :
    Alike R (ask question) (ask question) :=
  fun w v hworlds => .ok (h w.store v.store hworlds.store) hworlds

/-- A question about anything but users. -/
theorem alike_ask_blind {question : Store → α}
    (h : ∀ (s : Store) users, question (s.withUsers users) = question s) :
    Alike Eq (ask question) (ask question) := by
  refine alike_ask fun s t hstores => ?_
  obtain ⟨users, -, rfl⟩ := hstores
  exact (h s users).symm

/-- What follows a question for a user, which is answered in both worlds or in none. -/
theorem alike_ask_user {question : Store → Option User} {rest : Option User → Handler β}
    (hquestion : ∀ s t, s.SameButHashes t → Store.LikeFound (question s) (question t))
    (hnone : Alike S (rest none) (rest none))
    (hsome : ∀ u u', Store.LikeUser u u' → Alike S (rest (some u)) (rest (some u'))) :
    Alike S (ask question >>= rest) (ask question >>= rest) := by
  refine alike_bind (alike_ask hquestion) ?_
  intro found found' hfound
  rcases Store.LikeFound.cases hfound with ⟨rfl, rfl⟩ | ⟨u, u', rfl, rfl, hlike⟩
  · exact hnone
  · exact hsome u u' hlike

theorem alikeAnswers_onStoreOr (explain : StoreError → Problem) {op : Store → Outcome α}
    {w v : World} (hworlds : w.SameButHashes v) (hop : Store.Alike R (op w.store) (op v.store)) :
    AlikeAnswers R (onStoreOr explain op w) (onStoreOr explain op v) := by
  unfold onStoreOr
  generalize op w.store = outcome at hop ⊢
  generalize op v.store = outcome' at hop ⊢
  cases hop with
  | ok hanswer hstores => exact .ok hanswer ⟨hstores, hworlds.files⟩
  | error e hstores => exact .error (explain e) ⟨hstores, hworlds.files⟩

theorem alike_onStoreOr (explain : StoreError → Problem) {op : Store → Outcome α}
    (hop : ∀ s t, s.SameButHashes t → Store.Alike R (op s) (op t)) :
    Alike R (onStoreOr explain op) (onStoreOr explain op) :=
  fun w v hworlds => alikeAnswers_onStoreOr explain hworlds (hop w.store v.store hworlds.store)

theorem alike_onStoreOr_blind (explain : StoreError → Problem) {op : Store → Outcome α}
    (hop : Store.Blind op) : Alike Eq (onStoreOr explain op) (onStoreOr explain op) :=
  alike_onStoreOr explain fun _ _ hstores => Store.alike_of_blind hop hstores

theorem alike_jsonBody (d : Json.Decoder α) (r : Request) :
    Alike Eq (jsonBody d r) (jsonBody d r) := by
  intro w v hworlds
  rw [jsonBody]
  cases r.readJson d with
  | ok a => exact .ok rfl hworlds
  | error p => exact .error p hworlds

theorem sameButHashes_persist {w v : World} (h : w.SameButHashes v) (draw : Draw) :
    (w.persist draw).1 = (v.persist draw).1 ∧
      (w.persist draw).2.SameButHashes (v.persist draw).2 := by
  have hpath : v.store.path = w.store.path := by
    obtain ⟨users, -, hstore⟩ := h.store
    rw [hstore]
    rfl
  obtain ⟨hanswer, hfiles⟩ := Store.alike_save h.store h.files draw.now draw.tag
  unfold World.persist
  rw [hpath]
  generalize w.store.save w.files draw.now draw.tag = done at hanswer hfiles ⊢
  generalize v.store.save v.files draw.now draw.tag = done' at hanswer hfiles ⊢
  cases w.store.path with
  | none => exact ⟨rfl, h⟩
  | some path => exact ⟨hanswer, h.store, hfiles⟩

theorem alike_persist (draw : Draw) : Alike Eq (persist draw) (persist draw) := by
  intro w v hworlds
  obtain ⟨hanswer, hsaved⟩ := sameButHashes_persist hworlds draw
  rw [persist, persist]
  generalize w.persist draw = done at hanswer hsaved ⊢
  generalize v.persist draw = done' at hanswer hsaved ⊢
  obtain ⟨answer, w'⟩ := done
  obtain ⟨answer', v'⟩ := done'
  dsimp only at hanswer
  subst hanswer
  rcases answer with e | ⟨⟩
  · exact .error _ hsaved
  · exact .ok rfl hsaved

/-! ## Callers and ids -/

theorem checkAccess_withUsers (s : Store) (users : List User) (c : Carrier) :
    (s.withUsers users).checkAccess c = s.checkAccess c := by
  simp only [Store.checkAccess, Store.findKey?_withUsers]

theorem alike_requireKey (r : Request) : Alike Eq (requireKey r) (requireKey r) := by
  refine alike_bind_eq (alike_ask_blind fun s users => checkAccess_withUsers s users _) ?_
  intro answer
  cases answer with
  | ok grant => exact alike_pure rfl
  | error e => exact alike_fail _

/-- The owner of a key is found in both stores or in none. -/
theorem ownerOf?_congr {s t : Store} (h : s.SameButHashes t) (k : ApiKey) :
    Store.LikeFound (ownerOf? s k) (ownerOf? t k) := by
  unfold ownerOf?
  split
  · rfl
  · rcases (h.findUser? k.userId).cases with ⟨hs, ht⟩ | ⟨u, u', hs, ht, hlike⟩
    · rw [hs, ht]
      rfl
    · have hdisabled : u'.disabled = u.disabled := (congrArg User.disabled hlike).symm
      have hrole : u'.role = u.role := (congrArg User.role hlike).symm
      rw [hs, ht, Option.filter_some, Option.filter_some, hdisabled, hrole]
      split
      · exact congrArg some hlike
      · rfl

theorem alike_asOwner {r : Request} {act : Handler Response} (h : Alike Eq act act) :
    Alike Eq (asOwner r act) (asOwner r act) := by
  have howner : Alike (fun _ _ => True) (requireOwner r) (requireOwner r) := by
    refine alike_bind_eq (alike_requireKey r) fun grant => ?_
    refine alike_ask_user (fun s t hstores => ownerOf?_congr hstores grant.key) ?_ ?_
    · exact alike_fail _
    · exact fun _ _ _ => alike_pure trivial
  exact alike_bind howner fun _ _ _ => h

theorem alike_withId {ids : List (String × String)} {act : String → Handler Response}
    (h : ∀ id, Alike Eq (act id) (act id)) : Alike Eq (withId ids act) (withId ids act) := by
  rcases withId_cases ids act with ⟨id, -, hid⟩ | ⟨response, -, hresponse⟩
  · rw [hid]
    exact h id
  · rw [hresponse]
    exact alike_pure rfl

/-! ## Actions -/

variable {service : Service} {draw : Draw} {r : Request}

theorem alike_listUsers : Alike Eq Admin.listUsers Admin.listUsers := by
  have husers : Alike (fun us us' : List User => us.map User.veiled = us'.map User.veiled)
      (ask (·.users)) (ask (·.users)) :=
    alike_ask fun s t hstores => hstores.users
  refine alike_bind husers ?_
  intro us us' hus
  rw [User.map_view_congr hus]
  exact alike_pure rfl

theorem alike_getUser (id : String) : Alike Eq (Admin.getUser id) (Admin.getUser id) := by
  refine alike_ask_user (fun s t hstores => hstores.findUser? id) (alike_fail _) ?_
  intro u u' hlike
  dsimp only
  rw [hlike.view]
  exact alike_pure rfl

theorem alike_wantedRole (request : Admin.UserRequest) :
    Alike Eq (Admin.wantedRole request) (Admin.wantedRole request) := by
  unfold Admin.wantedRole
  split
  · exact alike_pure rfl
  · split
    · exact alike_pure rfl
    · exact alike_fail _

theorem alike_newHash (request : Admin.UserRequest) :
    Alike Eq (Admin.newHash service draw request) (Admin.newHash service draw request) := by
  unfold Admin.newHash
  split
  · exact alike_pure rfl
  · rename_i password _
    split
    · exact alike_fail _
    · exact alike_bind_eq (alike_onStoreOr_blind _ (Store.blind_hashPassword _ _ password))
        fun hash => alike_pure rfl

/-- A changed user is saved and shown. -/
theorem alike_shown (status : Nat) {u u' : User} (h : Store.LikeUser u u') :
    Alike Eq (persist draw >>= fun _ => pure (Response.json status u.view))
      (persist draw >>= fun _ => pure (Response.json status u'.view)) := by
  rw [h.view]
  exact alike_bind_eq (alike_persist draw) fun _ => alike_pure rfl

theorem alike_createUser :
    Alike Eq (Admin.createUser service draw r) (Admin.createUser service draw r) := by
  unfold Admin.createUser
  refine alike_bind_eq (alike_jsonBody _ r) fun request => ?_
  split
  · exact alike_fail _
  · exact alike_fail _
  · refine alike_bind_eq (alike_wantedRole request) fun role => ?_
    refine alike_bind_eq (alike_newHash request) fun hash => ?_
    refine alike_bind (alike_onStoreOr _ fun s t hstores => Store.alike_upsertUser hstores _ _ _) ?_
    exact fun u u' hlike => alike_shown 201 hlike

theorem likeUser_patchUser (request : Admin.UserRequest) (role : Option Role)
    (hash : Option String) {u u' : User} (h : Store.LikeUser u u') :
    Store.LikeUser (Admin.patchUser request role hash u)
      (Admin.patchUser request role hash u') := by
  simp only [Store.LikeUser, User.veiled, User.mk.injEq, true_and, Admin.patchUser] at h ⊢
  obtain ⟨hid, hname, hrole, hdisabled, hcreated⟩ := h
  rw [hid, hname, hrole, hdisabled, hcreated]
  exact ⟨rfl, rfl, rfl, rfl, rfl⟩

theorem alike_updateUser (id : String) :
    Alike Eq (Admin.updateUser service draw id r) (Admin.updateUser service draw id r) := by
  unfold Admin.updateUser
  refine alike_bind_eq (alike_jsonBody _ r) fun request => ?_
  refine alike_ask_user (fun s t hstores => hstores.findUser? id) (alike_fail _) ?_
  intro _ _ _
  refine alike_bind_eq (alike_wantedRole request) fun role => ?_
  refine alike_bind_eq (alike_newHash request) fun hash => ?_
  refine alike_bind (alike_onStoreOr _ fun s t hstores => Store.alike_updateUser hstores id
    fun _ _ => likeUser_patchUser request role hash) ?_
  exact fun u u' hlike => alike_shown 200 hlike

theorem alike_deleteUser (id : String) :
    Alike Eq (Admin.deleteUser draw id) (Admin.deleteUser draw id) := by
  refine alike_bind_eq (alike_onStoreOr _ fun s t hstores => Store.alike_deleteUser hstores id) ?_
  exact fun _ => alike_bind_eq (alike_persist draw) fun _ => alike_pure rfl

theorem alike_checkOwner (request : Admin.KeyRequest) :
    Alike Eq (Admin.checkOwner request) (Admin.checkOwner request) := by
  unfold Admin.checkOwner
  dsimp only
  split
  · exact alike_pure rfl
  · refine alike_ask_user (fun s t hstores => hstores.findUser? _) ?_ ?_
    · exact alike_fail _
    · exact fun _ _ _ => alike_pure rfl

theorem alike_findKey (id : String) : Alike Eq (Admin.findKey id) (Admin.findKey id) := by
  refine alike_bind_eq (alike_ask_blind fun _ _ => rfl) fun found => ?_
  cases found with
  | some key => exact alike_pure rfl
  | none => exact alike_fail _

/-- An operation on keys whose answer is saved before anything is told. -/
theorem alike_saved (explain : StoreError → Problem) {op : Store → Outcome α}
    (hop : Store.Blind op) {finish : α → Handler Response}
    (hfinish : ∀ a, Alike Eq (finish a) (finish a)) :
    Alike Eq (onStoreOr explain op >>= fun a => persist draw >>= fun _ => finish a)
      (onStoreOr explain op >>= fun a => persist draw >>= fun _ => finish a) :=
  alike_bind_eq (alike_onStoreOr_blind explain hop) fun a =>
    alike_bind_eq (alike_persist draw) fun _ => hfinish a

theorem alike_createKey : Alike Eq (Admin.createKey draw r) (Admin.createKey draw r) := by
  unfold Admin.createKey
  refine alike_bind_eq (alike_jsonBody _ r) fun request => ?_
  refine alike_bind_eq (alike_checkOwner request) fun _ => ?_
  exact alike_saved _ (Store.blind_upsertKey _ _ _) fun key => alike_pure rfl

theorem alike_updateKey (id : String) :
    Alike Eq (Admin.updateKey draw id r) (Admin.updateKey draw id r) := by
  unfold Admin.updateKey
  refine alike_bind_eq (alike_jsonBody _ r) fun request => ?_
  refine alike_bind_eq (alike_checkOwner request) fun _ => ?_
  exact alike_saved _ (Store.blind_updateKey id _) fun key => alike_pure rfl

theorem alike_resetUsage (id : String) :
    Alike Eq (Admin.resetUsage draw id) (Admin.resetUsage draw id) := by
  refine alike_saved _ (Store.blind_resetUsage id) fun key => ?_
  exact alike_bind_eq (alike_ask_blind fun _ _ => rfl) fun inFlight => alike_pure rfl

theorem alike_release (id : String) : Alike Eq (Admin.release id) (Admin.release id) := by
  refine alike_bind_eq (alike_findKey id) fun _ => ?_
  exact alike_bind_eq (alike_onStoreOr_blind _ (Store.blind_releaseSlots id))
    fun released => alike_pure rfl

theorem alike_state : Alike Eq Admin.state Admin.state := by
  refine alike_bind (alike_ask fun s t hstores => hstores) ?_
  intro s t hstores
  have husers := User.map_view_congr hstores.users
  obtain ⟨users, -, rfl⟩ := hstores
  refine alike_pure ?_
  rw [husers, Store.records_withUsers, Store.path_withUsers, Store.apiKeys_withUsers]

theorem alike_me : Alike Eq (Portal.me r) (Portal.me r) := by
  refine alike_bind_eq (alike_requireKey r) fun grant => ?_
  refine alike_ask_user (fun s t hstores => hstores.findUser? _) (alike_pure rfl) ?_
  intro u u' hlike
  refine alike_pure ?_
  simp only [Option.toList_some, List.map_cons, List.map_nil, hlike.view]

theorem alike_portalUsage : Alike Eq (Portal.usage r) (Portal.usage r) := by
  refine alike_bind_eq (alike_requireKey r) fun grant => ?_
  exact alike_bind_eq (alike_ask_blind fun _ _ => rfl) fun report => alike_pure rfl

theorem alike_ready : Alike Eq (ask Health.readiness) (ask Health.readiness) := by
  refine alike_ask fun s t hstores => ?_
  have hcount : s.users.length = t.users.length := by
    simpa using congrArg List.length hstores.users
  obtain ⟨users, -, rfl⟩ := hstores
  rw [Health.readiness, Health.readiness, Health.summary, Health.summary, Health.status,
    Health.status, Store.counts, Store.counts, Store.path_withUsers, Store.apiKeys_withUsers,
    hcount]

/-! ## The gate -/

/-- To enter is to pass the access check and then to be admitted. -/
theorem enter_eq (r : Request) : Gate.enter r = requireKey r >>= fun grant =>
    onStore (·.beginRequest grant.principal) >>= fun key => pure ⟨grant, key.id⟩ := by
  funext w
  rw [bind_apply, requireKey_apply, Gate.enter]
  cases w.store.checkAccess r.carrier with
  | error e => rfl
  | ok grant =>
    simp only [Except.mapError]
    rw [bind_apply, onStore, onStoreOr]
    rcases w.store.beginRequest grant.principal with ⟨e | key, store⟩ <;> rfl

theorem alike_enter : Alike Eq (Gate.enter r) (Gate.enter r) := by
  rw [enter_eq]
  refine alike_bind_eq (alike_requireKey r) fun grant => ?_
  exact alike_bind_eq (alike_onStoreOr_blind _ (Store.blind_beginRequest _))
    fun key => alike_pure rfl

theorem sameButHashes_complete {w v : World} (h : w.SameButHashes v) (admitted : Admitted)
    (served : Bool) :
    (Gate.complete service draw admitted served w).SameButHashes
      (Gate.complete service draw admitted served v) := by
  have hended := Store.alike_of_blind (Store.blind_endRequestById admitted.keyId served) h.store
  unfold Gate.complete
  generalize w.store.endRequestById admitted.keyId served = outcome at hended ⊢
  generalize v.store.endRequestById admitted.keyId served = outcome' at hended ⊢
  cases hended with
  | error e hstores => exact ⟨hstores, h.files⟩
  | @ok _ _ s t hanswer hstores =>
    have hworlds : World.SameButHashes ⟨s, w.files⟩ ⟨t, v.files⟩ := ⟨hstores, h.files⟩
    dsimp only
    split
    · exact (sameButHashes_persist hworlds draw).2
    · exact hworlds

theorem alike_throughGate (answer : Grant → Response) :
    Alike Eq (throughGate service draw r answer) (throughGate service draw r answer) := by
  refine alike_bind_eq alike_enter fun admitted => ?_
  have hleft : Alike Eq
      (modify (Gate.complete service draw admitted (answer admitted.grant).succeeded) :
        Handler PUnit)
      (modify (Gate.complete service draw admitted (answer admitted.grant).succeeded)) :=
    fun w v hworlds => .ok rfl (sameButHashes_complete hworlds admitted _)
  exact alike_bind_eq hleft fun _ => alike_pure rfl

/-! ## Every action -/

theorem alike_handler {action : Action} (h : action ≠ .login) (ids : List (String × String)) :
    Alike Eq (action.handler service draw ids r) (action.handler service draw ids r) := by
  cases action with
  | health => exact alike_pure rfl
  | ready => exact alike_bind_eq alike_ready fun _ => alike_pure rfl
  | live => exact alike_pure rfl
  | checkAccess => exact alike_throughGate fun grant => .json 200 (Access.report grant)
  | login => exact absurd rfl h
  | me => exact alike_me
  | portalUsage => exact alike_portalUsage
  | state => exact alike_asOwner alike_state
  | usage =>
    exact alike_asOwner (alike_bind_eq (alike_ask_blind fun _ _ => rfl) fun _ => alike_pure rfl)
  | listUsers => exact alike_asOwner alike_listUsers
  | createUser => exact alike_asOwner alike_createUser
  | getUser => exact alike_asOwner (alike_withId alike_getUser)
  | updateUser => exact alike_asOwner (alike_withId alike_updateUser)
  | deleteUser => exact alike_asOwner (alike_withId alike_deleteUser)
  | listKeys =>
    exact alike_asOwner (alike_bind_eq (alike_ask_blind fun _ _ => rfl) fun _ => alike_pure rfl)
  | createKey => exact alike_asOwner alike_createKey
  | getKey =>
    exact alike_asOwner (alike_withId fun id =>
      alike_bind_eq (alike_findKey id) fun _ => alike_pure rfl)
  | updateKey => exact alike_asOwner (alike_withId alike_updateKey)
  | deleteKey =>
    exact alike_asOwner (alike_withId fun id =>
      alike_saved _ (Store.blind_deleteKey id) fun _ => alike_pure rfl)
  | resetUsage => exact alike_asOwner (alike_withId alike_resetUsage)
  | release => exact alike_asOwner (alike_withId alike_release)

/-- The two stores have one verdict on the login that the request asks for. -/
def LoginAlike (service : Service) (r : Request) (s t : Store) : Prop :=
  ∀ username password, r.readJson Portal.loginDecoder = .ok (username, password) →
    Store.SameVerdict service.hasher username password s t

theorem alikeAnswers_login {w v : World} (hworlds : w.SameButHashes v)
    (hlogin : LoginAlike service r w.store v.store) :
    AlikeAnswers Eq (Portal.login service draw r w) (Portal.login service draw r v) := by
  unfold Portal.login
  rw [bind_apply, bind_apply]
  cases hread : r.readJson Portal.loginDecoder with
  | error p =>
    rw [jsonBody, hread]
    exact .error p hworlds
  | ok request =>
    obtain ⟨username, password⟩ := request
    rw [jsonBody, hread]
    refine alikeAnswers_bind (alikeAnswers_onStoreOr _ hworlds
      (Store.alike_authenticate hworlds.store draw.salt (hlogin username password hread))) ?_
    intro u u' hlike
    have hid : u'.id = u.id := (congrArg User.id hlike).symm
    rw [hid, hlike.view]
    exact alike_bind_eq (alike_ask_blind fun _ _ => rfl) fun keys => alike_pure rfl

end Handler

namespace Service

open Handler

variable (service : Service) (draw : Draw) {r : Request} {w v : World}

/-! ## Requests -/

def IsLogin (r : Request) : Prop := r.method = "POST" ∧ r.uri.path = "/portal/login"

instance (r : Request) : Decidable (IsLogin r) := inferInstanceAs (Decidable (_ ∧ _))

theorem alikeAnswers_route (hworlds : w.SameButHashes v)
    (hlogin : IsLogin r → LoginAlike service r w.store v.store) {route : Route}
    {ids : List (String × String)} (hroute : findRoute r.uri.path = some (route, ids)) :
    AlikeAnswers Eq (route.handler service draw ids r w) (route.handler service draw ids r v) := by
  unfold Route.handler
  cases haction : route.action? r.method with
  | none =>
    dsimp only
    split
    · exact alike_throughGate _ w v hworlds
    · exact alike_pure rfl w v hworlds
  | some action =>
    by_cases haslogin : action = .login
    · subst haslogin
      exact alikeAnswers_login hworlds (hlogin (Route.request_of_login hroute haction))
    · exact alike_handler haslogin ids w v hworlds

theorem handle_alike (hworlds : w.SameButHashes v)
    (hlogin : IsLogin r → LoginAlike service r w.store v.store) :
    (service.handle draw r w).1 = (service.handle draw r v).1 ∧
      (service.handle draw r w).2.SameButHashes (service.handle draw r v).2 := by
  unfold handle
  cases hroute : findRoute r.uri.path with
  | none => exact ⟨rfl, hworlds⟩
  | some found =>
    obtain ⟨route, ids⟩ := found
    have halike := alikeAnswers_route service draw hworlds hlogin hroute
    dsimp only
    rw [answer, answer]
    generalize route.handler service draw ids r w = answers at halike ⊢
    generalize route.handler service draw ids r v = answers' at halike ⊢
    cases halike with
    | ok hanswer hafter =>
      subst hanswer
      exact ⟨rfl, hafter⟩
    | error p hafter => exact ⟨rfl, hafter⟩

/-! ## Runs of requests -/

def step (service : Service) (w : World) (call : Draw × Request) : World :=
  (service.handle call.1 call.2 w).2

/-- The responses to requests that come one after another. -/
def responses (service : Service) (w : World) (calls : List (Draw × Request)) : List Response :=
  Run.collect service.step (fun w call => some (service.handle call.1 call.2 w).1) w calls

/-- Worlds that differ in password hashes answer a request alike and differ in hashes alone
afterwards; for a login that holds if they have one verdict on it. So no run of requests without a
login tells anything about the hashes. -/
theorem hashes_unseen (w v : World) (h : w.SameButHashes v) :
    (∀ draw r, (IsLogin r → LoginAlike service r w.store v.store) →
      (service.handle draw r w).1 = (service.handle draw r v).1 ∧
        (service.handle draw r w).2.SameButHashes (service.handle draw r v).2) ∧
      ∀ calls : List (Draw × Request), (∀ call ∈ calls, ¬ IsLogin call.2) →
        service.responses w calls = service.responses v calls ∧
          (Run.after service.step w calls).SameButHashes (Run.after service.step v calls) := by
  refine ⟨fun draw r hlogin => handle_alike service draw h hlogin, ?_⟩
  intro calls hcalls
  induction calls generalizing w v with
  | nil => exact ⟨rfl, h⟩
  | cons call rest ih =>
    obtain ⟨hcall, hrest⟩ := List.forall_mem_cons.mp hcalls
    obtain ⟨hanswer, hafter⟩ := handle_alike service call.1 h
      fun hlogin => absurd hlogin hcall
    obtain ⟨hanswers, hend⟩ := ih _ _ hafter hrest
    refine ⟨?_, hend⟩
    rw [responses, responses, Run.collect, Run.collect, hanswer]
    exact congrArg _ hanswers

/-- A desk with one owner, whose password has this hash, and the owner's key. -/
def desk (hash : String) : World where
  store := { Store.new (some "records.json") .epoch with
    records := { RecordSet.empty .epoch with
      users := [⟨"usr_1", "ada", hash, .owner, false, .epoch⟩]
      apiKeys := [{ ApiKey.fresh "tk_desk" "" .epoch with id := "key_1", userId := "usr_1" }] } }
  files := .empty

def deskDraw : Draw := ⟨.epoch, "usr_2", "key_2", "tk_2", [], "tag", "request"⟩

def deskRequest (method path body : String) : Request :=
  ⟨method, ⟨path, none⟩, [⟨"x-api-key", Utf8.encode "tk_desk"⟩,
    ⟨"content-type", Utf8.encode "application/json"⟩], Utf8.encode body⟩

/-- The owner gets another name and a user is created, each with a save, before all is shown. -/
def deskCalls : List (Draw × Request) :=
  [(deskDraw, deskRequest "PUT" "/admin/users/usr_1" "\x7b\"username\":\"grace\"\x7d"),
    (deskDraw, deskRequest "POST" "/admin/users"
      "\x7b\"username\":\"ada\",\"password\":\"word\"\x7d"),
    (deskDraw, deskRequest "GET" "/admin/state" "")]

def deskLogin : Request :=
  deskRequest "POST" "/portal/login" "\x7b\"username\":\"ada\",\"password\":\"word\"\x7d"

/-- The password is refused at both desks. -/
theorem hashes_unseen_desk :
    (desk "one").SameButHashes (desk "two") ∧ (∀ call ∈ deskCalls, ¬ IsLogin call.2) ∧
      LoginAlike Gateway.doorService deskLogin (desk "one").store (desk "two").store ∧
      (Gateway.doorService.handle deskDraw deskLogin (desk "one")).1 =
        (Gateway.doorService.handle deskDraw deskLogin (desk "two")).1 ∧
      Gateway.doorService.responses (desk "one") deskCalls =
        Gateway.doorService.responses (desk "two") deskCalls ∧
      (Gateway.doorService.responses (desk "one") deskCalls).map (·.status) = [200, 201, 200] := by
  have hworlds : (desk "one").SameButHashes (desk "two") :=
    ⟨⟨(desk "two").store.users, rfl, rfl⟩, rfl⟩
  have hcalls : ∀ call ∈ deskCalls, ¬ IsLogin call.2 := by decide
  have hlogin : LoginAlike Gateway.doorService deskLogin (desk "one").store (desk "two").store := by
    intro username password hread
    have hsent : deskLogin.readJson Portal.loginDecoder = .ok ("ada", "word") := by decide +kernel
    rw [hsent] at hread
    cases hread
    intro u u' hu hu'
    have hone : (desk "one").store.findUserByName? "ada" =
        some ⟨"usr_1", "ada", "one", .owner, false, .epoch⟩ := by
      decide +kernel
    have htwo : (desk "two").store.findUserByName? "ada" =
        some ⟨"usr_1", "ada", "two", .owner, false, .epoch⟩ := by
      decide +kernel
    cases hone.symm.trans hu
    cases htwo.symm.trans hu'
    exact .inr ⟨by decide, by decide, by decide⟩
  obtain ⟨hanswer, hrun⟩ := hashes_unseen Gateway.doorService (desk "one") (desk "two") hworlds
  exact ⟨hworlds, hcalls, hlogin, (hanswer deskDraw deskLogin fun _ => hlogin).1,
    (hrun deskCalls hcalls).1, by decide +kernel⟩

end Service
end Turnstile
