import Turnstile.Proofs.Service.Membership
import Turnstile.Proofs.Service.Portal

/-! Enrolment. Who is created with a password, or is given a new one, can log in with it from the
answer on, under every spelling of the name, until the user is changed or deleted. -/

namespace Turnstile

open Http (Request Response Problem)

/-- A hash that is made is not empty, and the password that it was made of passes. -/
structure Hasher.Lawful (hasher : Hasher) : Prop where
  nonempty : ∀ salt password hash, hasher.hash salt password = .ok hash → hash ≠ ""
  verifies : ∀ salt password hash, hasher.hash salt password = .ok hash →
    hasher.verify password hash = true

/-- How a user is created and how one is changed: with the role and the hash that the request asks
for, the user is stored, saved and answered. -/
def Admin.storeUser (service : Service) (draw : Draw) (request : UserRequest)
    (store : Option Role → Option String → Store → Outcome User) (status : Nat) :
    Handler Response := do
  let role ← wantedRole request
  let hash ← newHash service draw request
  let user ← Handler.onStore (store role hash)
  Handler.persist draw
  return .json status user.view

/-! ## Requests that are served -/

namespace Handler

variable {service : Service} {draw : Draw} {r : Request} {w : World}

section Steps

variable {α : Type} {rest : α → Handler Response}

/-- A step that fails with such a problem serves no request. -/
theorem not_served {h : Handler α} {p : Problem} {v : World} (hstep : h w = (.error p, v))
    (hstatus : 400 ≤ p.status) : ¬ ((h >>= rest).answer w).1.status < 400 := by
  rw [answer_bind, hstep]
  exact Nat.not_lt.mpr hstatus

theorem served_jsonBody {d : Json.Decoder α}
    (hserved : ((jsonBody d r >>= rest).answer w).1.status < 400) :
    ∃ a, r.readJson d = .ok a ∧ (jsonBody d r >>= rest).answer w = (rest a).answer w := by
  have hstep : jsonBody d r w = (r.readJson d, w) := rfl
  cases hread : r.readJson d with
  | error p =>
    rw [hread] at hstep
    exact absurd hserved (not_served hstep (Problem.status_readJson hread))
  | ok a =>
    rw [hread] at hstep
    exact ⟨a, rfl, by rw [answer_bind, hstep]⟩

theorem served_onStore {f : Store → Outcome α}
    (hserved : ((onStore f >>= rest).answer w).1.status < 400) :
    ∃ a t, f w.store = (.ok a, t) ∧
      (onStore f >>= rest).answer w = (rest a).answer { w with store := t } := by
  rcases hstored : f w.store with ⟨e | a, t⟩
  · have hstep : onStore f w = (.error (Problem.ofStore e), { w with store := t }) := by
      simp only [onStore, onStoreOr, hstored]
    exact absurd hserved (not_served hstep (Problem.status_ofStore e))
  · refine ⟨a, t, rfl, ?_⟩
    rw [answer_bind]
    simp only [onStore, onStoreOr, hstored]

end Steps

theorem answer_ask {α : Type} {question : Store → α} {rest : α → Handler Response} :
    (ask question >>= rest).answer w = (rest (question w.store)).answer w :=
  answer_bind _ _ _

theorem served_asOwner {act : Handler Response}
    (hserved : ((asOwner r act).answer w).1.status < 400) :
    (asOwner r act).answer w = act.answer w := by
  rcases asOwner_cases (r := r) (w := w) act with ⟨p, hstatus, hrefused⟩ | ⟨-, -, -, -, hdone⟩
  · rw [hrefused] at hserved
    exact absurd hserved (Nat.not_lt.mpr hstatus)
  · exact hdone

theorem served_withId {ids : List (String × String)} {act : String → Handler Response}
    (hserved : ((withId ids act).answer w).1.status < 400) :
    ∃ id, pathId? ids = some id ∧ withId ids act = act id := by
  rcases withId_cases ids act with hid | ⟨response, hstatus, hact⟩
  · exact hid
  · rw [hact] at hserved
    exact absurd hserved (Nat.not_lt.mpr hstatus)

section Users

variable {request : Admin.UserRequest} {password : String}

theorem served_wantedRole {rest : Option Role → Handler Response}
    (hserved : ((Admin.wantedRole request >>= rest).answer w).1.status < 400) :
    ∃ role, (Admin.wantedRole request >>= rest).answer w = (rest role).answer w := by
  unfold Admin.wantedRole at hserved ⊢
  cases hrole : request.role with
  | none => exact ⟨none, rfl⟩
  | some text =>
    rw [hrole] at hserved
    dsimp only at hserved ⊢
    cases hparse : Role.parse text with
    | ok role => exact ⟨some role, rfl⟩
    | error refusal =>
      rw [hparse] at hserved
      exact absurd hserved (not_served rfl (Problem.status_ofStore _))

theorem served_newHash {rest : Option String → Handler Response}
    (hpassword : request.password = some password)
    (hserved : ((Admin.newHash service draw request >>= rest).answer w).1.status < 400) :
    ∃ hash, service.hasher.hash draw.salt password = .ok hash ∧
      (Admin.newHash service draw request >>= rest).answer w = (rest (some hash)).answer
        { w with store := (w.store.hashPassword service.hasher draw.salt password).2 } := by
  unfold Admin.newHash at hserved ⊢
  rw [hpassword] at hserved ⊢
  dsimp only at hserved ⊢
  cases hcheck : checkPassword password with
  | error refusal =>
    rw [hcheck] at hserved
    exact absurd hserved (not_served rfl (Problem.status_ofStore _))
  | ok _ =>
    rw [hcheck] at hserved
    dsimp only at hserved ⊢
    rw [bind_assoc] at hserved ⊢
    obtain ⟨hash, t, hhash, hanswer⟩ := served_onStore hserved
    obtain ⟨hmade, rfl⟩ := Prod.mk.inj hhash
    exact ⟨hash, hmade, hanswer⟩

theorem served_persist {rest : Unit → Handler Response}
    (hserved : ((persist draw >>= rest).answer w).1.status < 400) :
    (w.persist draw).1 = .ok () ∧
      (persist draw >>= rest).answer w = (rest ()).answer (w.persist draw).2 := by
  rcases hsaved : w.persist draw with ⟨e | ⟨⟩, v⟩
  · have hstep : Handler.persist draw w = (.error (Problem.ofStore e), v) := by
      simp only [Handler.persist, hsaved]
    exact absurd hserved (not_served hstep (Problem.status_ofStore e))
  · have hstep : Handler.persist draw w = (.ok (), v) := by
      simp only [Handler.persist, hsaved]
    exact ⟨rfl, by rw [answer_bind, hstep]⟩

/-- A user who is answered has been stored and saved with a hash of the password. -/
theorem served_storeUser {store : Option Role → Option String → Store → Outcome User}
    {status : Nat} (hpassword : request.password = some password)
    (hserved : ((Admin.storeUser service draw request store status).answer w).1.status < 400) :
    ∃ role hash user t, service.hasher.hash draw.salt password = .ok hash ∧
      store role (some hash) (w.store.hashPassword service.hasher draw.salt password).2 =
        (.ok user, t) ∧
      ({ w with store := t }.persist draw).1 = .ok () ∧
      (Admin.storeUser service draw request store status).answer w =
        (.json status user.view, ({ w with store := t }.persist draw).2) := by
  unfold Admin.storeUser at hserved ⊢
  obtain ⟨role, hanswer⟩ := served_wantedRole hserved
  rw [hanswer] at hserved ⊢
  obtain ⟨hash, hhash, hanswer⟩ := served_newHash hpassword hserved
  rw [hanswer] at hserved ⊢
  obtain ⟨user, t, hstored, hanswer⟩ := served_onStore hserved
  rw [hanswer] at hserved ⊢
  obtain ⟨hsaved, hanswer⟩ := served_persist hserved
  rw [hanswer]
  exact ⟨role, hash, user, t, hhash, hstored, hsaved, rfl⟩

end Users

end Handler

/-! ## Enrolment and login -/

/-- The request was answered with the user, who has an account and a hash of the password. -/
structure Enrolled (hasher : Hasher) (password : String) (status : Nat) (user : User)
    (outcome : Response × World) : Prop where
  answer : outcome.1 = .json status user.view
  hash : ∃ salt, hasher.hash salt password = .ok user.passwordHash
  named : user.username ≠ ""
  known : outcome.2.Knows user

/-- With the password, every spelling of the name logs the user in. -/
def World.LogsIn (service : Service) (password : String) (user : User) (w : World) : Prop :=
  ∀ draw login ids name, Http.Request.Asks login .login ids →
    login.readJson Portal.loginDecoder = .ok (name, password) →
    sameUsername user.username (Text.trim name) = true →
    (service.handle draw login w).1 = Portal.loginAnswer w.store user

/-- The user can log in until an event changes or deletes the user. -/
def World.KeepsLogin (service : Service) (password : String) (user : User) (w : World) : Prop :=
  ∀ run, w.SparedBy service user run →
    (Run.after (World.next service) w run).LogsIn service password user

theorem ne_empty_of_checkUsername {name : String} (h : checkUsername name = .ok ()) :
    name ≠ "" := by
  rintro rfl
  exact absurd h (by decide)

section Enrolment

variable {service : Service} {draw : Draw} {r : Request} {w : World}
  {request : Admin.UserRequest} {password : String}

theorem World.Knows.logsIn {user : User} (h : w.Knows user) (hactive : user.disabled = false)
    (hnamed : user.username ≠ "") (hhash : user.passwordHash ≠ "")
    (hverify : service.hasher.verify password user.passwordHash = true) :
    w.LogsIn service password user := by
  intro draw login ids name hasks hread hname
  have hmethod : login.method ≠ "HEAD" := by
    obtain ⟨route, hroute, haction⟩ := hasks
    rw [(Route.request_of_login hroute haction).1]
    decide
  rw [Service.handle_of_asks hasks hmethod]
  change ((Portal.login service draw login).answer w).1 = _
  rw [Portal.answer_login, hread]
  dsimp only
  rw [Store.authenticate_of_account h.account hactive hnamed hhash hname hverify]

theorem Enrolled.keepsLogin {status : Nat} {user : User} {outcome : Response × World}
    (h : Enrolled service.hasher password status user outcome) (hlawful : service.hasher.Lawful)
    (hactive : user.disabled = false) : outcome.2.KeepsLogin service password user := by
  intro run hspared
  obtain ⟨salt, hhash⟩ := h.hash
  exact (h.known.after hspared).logsIn hactive h.named (hlawful.nonempty salt password _ hhash)
    (hlawful.verifies salt password _ hhash)

theorem served_createUser (hread : r.readJson Admin.userDecoder = .ok request)
    (hpassword : request.password = some password)
    (hserved : ((Admin.createUser service draw r).answer w).1.status < 400) :
    ∃ username, request.username = some username ∧
      (Admin.createUser service draw r).answer w =
        (Admin.storeUser service draw request (fun role hash s =>
          s.upsertUser draw.userId draw.now
            { id := "", username, passwordHash := hash.getD "", role := role.getD .user,
              disabled := request.disabled.getD false, createdAt := draw.now }) 201).answer w := by
  unfold Admin.createUser at hserved ⊢
  obtain ⟨given, hgiven, hanswer⟩ := Handler.served_jsonBody hserved
  cases hread.symm.trans hgiven
  rw [hanswer] at hserved ⊢
  cases hname : request.username with
  | none =>
    rw [hname] at hserved
    exact absurd hserved (Nat.not_lt.mpr (Nat.le_refl 400))
  | some username =>
    rw [hpassword]
    exact ⟨username, rfl, rfl⟩

theorem served_updateUser {id : String} (hread : r.readJson Admin.userDecoder = .ok request)
    (hserved : ((Admin.updateUser service draw id r).answer w).1.status < 400) :
    ∃ found, w.store.findUser? id = some found ∧
      (Admin.updateUser service draw id r).answer w =
        (Admin.storeUser service draw request (fun role hash s =>
          s.updateUser id (Admin.patchUser request role hash)) 200).answer w := by
  unfold Admin.updateUser at hserved ⊢
  obtain ⟨given, hgiven, hanswer⟩ := Handler.served_jsonBody hserved
  cases hread.symm.trans hgiven
  rw [hanswer, Handler.answer_ask] at hserved ⊢
  cases hfound : w.store.findUser? id with
  | none =>
    rw [hfound] at hserved
    exact absurd hserved (Nat.not_lt.mpr (Problem.status_ofStore _))
  | some found => exact ⟨found, rfl, rfl⟩

theorem enrolled_createUser (hread : r.readJson Admin.userDecoder = .ok request)
    (hpassword : request.password = some password)
    (hserved : ((Admin.createUser service draw r).answer w).1.status < 400) :
    ∃ user, Enrolled service.hasher password 201 user
        ((Admin.createUser service draw r).answer w) ∧
      user.id = draw.userId ∧ request.username.map Text.trim = some user.username ∧
      user.disabled = request.disabled.getD false := by
  obtain ⟨username, hname, hcreates⟩ := served_createUser hread hpassword hserved
  rw [hcreates] at hserved ⊢
  obtain ⟨role, hash, user, t, hhash, hstored, hsaved, hanswer⟩ :=
    Handler.served_storeUser hpassword hserved
  rw [hanswer]
  obtain ⟨huser, hcheck, hfree, ht⟩ := Store.upsertUser_of_new rfl hstored
  have haccount : Account t.users user := by
    rw [ht]
    exact account_append hfree
  refine ⟨user, ⟨rfl, ⟨draw.salt, ?_⟩, ne_empty_of_checkUsername hcheck,
    World.knows_of_persisted haccount hsaved⟩, ?_, ?_, ?_⟩
  all_goals rw [huser]
  · exact hhash
  · rw [hname]
    rfl

theorem enrolled_updateUser (hids : (w.store.users.map User.id).Nodup)
    (hread : r.readJson Admin.userDecoder = .ok request)
    (hpassword : request.password = some password) {id : String}
    (hserved : ((Admin.updateUser service draw id r).answer w).1.status < 400) :
    ∃ found user, w.store.findUser? id = some found ∧
      Enrolled service.hasher password 200 user
        ((Admin.updateUser service draw id r).answer w) ∧
      user.id = found.id ∧
      user.username = Text.trim (request.username.getD found.username) ∧
      user.disabled = request.disabled.getD found.disabled := by
  obtain ⟨found, hasked, hupdates⟩ := served_updateUser hread hserved
  rw [hupdates] at hserved ⊢
  obtain ⟨role, hash, user, t, hhash, hstored, hsaved, hanswer⟩ :=
    Handler.served_storeUser hpassword hserved
  rw [hanswer]
  obtain ⟨patched, hfound, huser, hcheck, hfree, ht⟩ := Store.updateUser_of_ok hstored
  cases (Store.findUser?_eq_some_iff.mp hasked).2.symm.trans hfound
  have hid : found.id = Text.trim id := (Store.id_of_findUser? hasked).1
  have haccount : Account t.users user := by
    rw [ht]
    refine account_replaceFirst hids hfound ?_
    rw [hid]
    exact hfree
  refine ⟨found, user, hasked, ⟨rfl, ⟨draw.salt, ?_⟩, ne_empty_of_checkUsername hcheck,
    World.knows_of_persisted haccount hsaved⟩, ?_, ?_, ?_⟩
  all_goals rw [huser]
  · exact hhash
  all_goals rfl

end Enrolment

namespace Service

section Served

variable {service : Service} {draw : Draw} {r : Request} {w : World}
  {ids : List (String × String)} (hserved : (service.handle draw r w).1.status < 400)

include hserved

theorem handle_createUser (hasks : r.Asks .createUser ids) :
    service.handle draw r w = (Admin.createUser service draw r).answer w := by
  rw [handle_of_asks hasks (hasks.method_ne_head rfl)] at hserved ⊢
  exact Handler.served_asOwner hserved

theorem handle_updateUser (hasks : r.Asks .updateUser ids) :
    ∃ id, Handler.pathId? ids = some id ∧
      service.handle draw r w = (Admin.updateUser service draw id r).answer w := by
  rw [handle_of_asks hasks (hasks.method_ne_head rfl)] at hserved ⊢
  have hanswer := Handler.served_asOwner hserved
  rw [Action.handler] at hserved ⊢
  rw [hanswer] at hserved ⊢
  obtain ⟨id, hid, hact⟩ := Handler.served_withId hserved
  exact ⟨id, hid, by rw [hact]⟩

end Served

/-- Who is created with a password, or is given one, and is not disabled can log in from the answer
on, under every spelling of the name, until a request changes or deletes the user. -/
theorem login_after_enrolment (service : Service) (draw : Draw) (r : Request) (w : World)
    {ids : List (String × String)} {request : Admin.UserRequest} {password : String}
    (hlawful : service.hasher.Lawful) (hids : (w.store.users.map User.id).Nodup)
    (hread : r.readJson Admin.userDecoder = .ok request)
    (hpassword : request.password = some password) :
    (r.Asks .createUser ids → (service.handle draw r w).1.status = 201 →
      ∃ user, (service.handle draw r w).1 = .json 201 user.view ∧ user.id = draw.userId ∧
        request.username.map Text.trim = some user.username ∧
        user.disabled = request.disabled.getD false ∧
        (user.disabled = false →
          (service.handle draw r w).2.KeepsLogin service password user)) ∧
    (r.Asks .updateUser ids → (service.handle draw r w).1.status = 200 →
      ∃ id found user, Handler.pathId? ids = some id ∧ w.store.findUser? id = some found ∧
        (service.handle draw r w).1 = .json 200 user.view ∧ user.id = found.id ∧
        user.username = Text.trim (request.username.getD found.username) ∧
        user.disabled = request.disabled.getD found.disabled ∧
        (user.disabled = false →
          (service.handle draw r w).2.KeepsLogin service password user)) := by
  constructor
  · intro hasks hstatus
    have hanswer := handle_createUser (by rw [hstatus]; decide) hasks
    have hserved : ((Admin.createUser service draw r).answer w).1.status < 400 := by
      rw [← hanswer, hstatus]
      decide
    obtain ⟨user, henrolled, hid, hname, hdisabled⟩ := enrolled_createUser hread hpassword hserved
    rw [hanswer]
    exact ⟨user, henrolled.answer, hid, hname, hdisabled, henrolled.keepsLogin hlawful⟩
  · intro hasks hstatus
    obtain ⟨id, hid, hanswer⟩ := handle_updateUser (by rw [hstatus]; decide) hasks
    have hserved : ((Admin.updateUser service draw id r).answer w).1.status < 400 := by
      rw [← hanswer, hstatus]
      decide
    obtain ⟨found, user, hfound, henrolled, hsame, hname, hdisabled⟩ :=
      enrolled_updateUser hids hread hpassword hserved
    rw [hanswer]
    exact ⟨id, found, user, hid, hfound, henrolled.answer, hsame, hname, hdisabled,
      henrolled.keepsLogin hlawful⟩

/-- A place with two users and a file that has not been written yet. -/
def office : World where
  store := { Store.new (some "keys.json") .epoch with
    records := { RecordSet.empty .epoch with
      users := [⟨"usr_1", "grace", "", .owner, false, .epoch⟩,
        ⟨"usr_2", "joan", "", .user, false, .epoch⟩]
      apiKeys := [{ ApiKey.fresh "tk_grace" "" .epoch with id := "key_1", userId := "usr_1" }] } }
  files := .empty

def officeService : Service :=
  ⟨⟨fun _ password => .ok ("#" ++ password), fun password hash => hash == "#" ++ password⟩, false⟩

def officeDraw : Draw := ⟨.epoch, "usr_9", "key_9", "tk_9", [], "tag", "request"⟩

def officeRequest (method path body : String) : Request :=
  ⟨method, ⟨path, none⟩, [⟨"x-api-key", Utf8.encode "tk_grace"⟩,
    ⟨"content-type", Utf8.encode "application/json"⟩], Utf8.encode body⟩

def officeEnrolment : Request :=
  officeRequest "POST" "/admin/users" "\x7b\"username\":\" Ada \",\"password\":\"word\"\x7d"

def officeReset : Request :=
  officeRequest "PUT" "/admin/users/usr_2" "\x7b\"password\":\"word\"\x7d"

def officeLogin (name : String) : Request :=
  officeRequest "POST" "/portal/login"
    ("\x7b\"username\":\"" ++ name ++ "\",\"password\":\"word\"\x7d")

def officeRename : Request :=
  officeRequest "PUT" "/admin/users/usr_2" "\x7b\"username\":\"ada\"\x7d"

/-- The records are saved and loaded again. Then another user asks for the new one's name, and is
deleted. -/
def officeRun : List World.Event :=
  [.save officeDraw, .load .epoch, .request officeDraw officeRename,
    .request officeDraw (officeRequest "DELETE" "/admin/users/usr_2" "")]

def officeEnrolled : World := (officeService.handle officeDraw officeEnrolment office).2

theorem lawful_office : officeService.hasher.Lawful := by
  constructor
  · rintro salt password hash ⟨⟩
    simp
  · rintro salt password hash ⟨⟩
    exact beq_self_eq_true _

theorem findRoute_usr_2 {path : String} (h : path = "/admin/users/usr_2") : findRoute path =
    some (⟨[.literal "admin", .literal "users", .id "user_id"],
      [("GET", .getUser), ("PUT", .updateUser), ("DELETE", .deleteUser)]⟩,
      [("user_id", "usr_2")]) := by
  subst h
  decide +kernel

theorem fits_office : office.Fits officeDraw :=
  fun _ _ => ⟨FileTree.wellFormed_empty, by decide, fun _ => Replacement.unused_empty⟩

theorem sparedBy_officeRun {user : User} (hid : user.id = "usr_9") :
    officeEnrolled.SparedBy officeService user officeRun := by
  have hother {r : Request} (hpath : r.uri.path = "/admin/users/usr_2") : ¬ r.Names user.id := by
    refine Http.Request.not_names (findRoute_usr_2 hpath) ?_
    rw [hid]
    decide +kernel
  have hrename : ¬ officeRename.Names user.id := hother rfl
  have hdelete : ¬ (officeRequest "DELETE" "/admin/users/usr_2" "").Names user.id := hother rfl
  refine World.sparedBy_of_fits (fits_office.handle officeService officeEnrolment) ?_
  simp [officeRun, World.Event.Apart, hrename, hdelete]

/-- The save of the run writes the file and the load reads it. -/
theorem reloaded_officeEnrolled :
    (officeEnrolled.persist officeDraw).1 = .ok () ∧
      ((officeEnrolled.persist officeDraw).2.store.load (officeEnrolled.persist officeDraw).2.files
        .epoch).1 = .ok () := by
  have hsaved : (officeEnrolled.persist officeDraw).1 = .ok () := by decide +kernel
  have hpath : officeEnrolled.store.path = some "keys.json" :=
    World.path_handle officeService officeDraw officeEnrolment office
  have hcontents := World.contents_of_persisted hsaved hpath
  refine ⟨hsaved, ?_⟩
  rw [officeEnrolled.store_persist officeDraw, Store.load_of_contents hpath hcontents]

/-- A user who has been created logs in after the records were saved and loaded again and another
user has come and gone, and one who has been given a password at once. -/
theorem login_after_enrolment_office :
    (officeService.handle officeDraw officeEnrolment office).1.status = 201 ∧
      (officeEnrolled.persist officeDraw).1 = .ok () ∧
      ((officeEnrolled.persist officeDraw).2.store.load (officeEnrolled.persist officeDraw).2.files
        .epoch).1 = .ok () ∧
      (∃ user : User, user.id = "usr_9" ∧
        (officeService.handle officeDraw (officeLogin "ADA ")
          (Run.after (World.next officeService) officeEnrolled officeRun)).1 =
        Portal.loginAnswer (Run.after (World.next officeService) officeEnrolled officeRun).store
          user) ∧
      (officeService.handle officeDraw officeReset office).1.status = 200 ∧
      ∃ user : User, user.id = "usr_2" ∧
        (officeService.handle officeDraw (officeLogin "Joan")
          (officeService.handle officeDraw officeReset office).2).1 =
        Portal.loginAnswer (officeService.handle officeDraw officeReset office).2.store user := by
  have hlogin (name : String) : (officeLogin name).Asks .login [] :=
    ⟨_, findRoute_login rfl, rfl⟩
  obtain ⟨hsaved, hloaded⟩ := reloaded_officeEnrolled
  refine ⟨by decide +kernel, hsaved, hloaded, ?_, by decide +kernel, ?_⟩
  · have hread : officeEnrolment.readJson Admin.userDecoder =
        .ok ⟨some " Ada ", some "word", none, none⟩ := by
      decide +kernel
    have hasks : officeEnrolment.Asks .createUser [] :=
      ⟨⟨[.literal "admin", .literal "users"], [("GET", .listUsers), ("POST", .createUser)]⟩,
        by decide +kernel, by decide +kernel⟩
    obtain ⟨hcreated, -⟩ := login_after_enrolment officeService officeDraw officeEnrolment office
      lawful_office (by decide) hread rfl
    obtain ⟨user, -, hid, hname, hdisabled, hkeeps⟩ := hcreated hasks (by decide +kernel)
    have hnamed : user.username = Text.trim " Ada " := (Option.some.inj hname).symm
    refine ⟨user, hid, hkeeps hdisabled officeRun (sparedBy_officeRun hid) officeDraw
      (officeLogin "ADA ") [] "ADA " (hlogin _) (by decide +kernel) ?_⟩
    rw [hnamed]
    decide +kernel
  · have hread : officeReset.readJson Admin.userDecoder =
        .ok ⟨none, some "word", none, none⟩ := by
      decide +kernel
    have hasks : officeReset.Asks .updateUser [("user_id", "usr_2")] :=
      ⟨_, findRoute_usr_2 rfl, by decide +kernel⟩
    have hfound : office.store.findUser? "usr_2" =
        some ⟨"usr_2", "joan", "", .user, false, .epoch⟩ := by
      decide +kernel
    obtain ⟨-, hchanged⟩ := login_after_enrolment officeService officeDraw officeReset office
      lawful_office (by decide) hread rfl
    obtain ⟨id, found, user, hgiven, hstored, -, hid, hname, hdisabled, hkeeps⟩ :=
      hchanged hasks (by decide +kernel)
    have hpath : Handler.pathId? [("user_id", "usr_2")] = some "usr_2" := by decide +kernel
    cases hpath.symm.trans hgiven
    cases hfound.symm.trans hstored
    refine ⟨user, hid, hkeeps hdisabled [] trivial officeDraw (officeLogin "Joan") [] "Joan"
      (hlogin _) (by decide +kernel) ?_⟩
    rw [hname]
    decide +kernel

end Service

end Turnstile
