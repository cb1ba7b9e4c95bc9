import Turnstile.Proofs.Service.Handler

/-! What the actions do to a store. A question is answered without a change. An owner's change asks
for one operation and saves the store before it is answered; only a release of slots is not saved,
since slots are not written to the file. -/

namespace Turnstile

open Http (Problem Request Response)
open Handler

/-- The operation is the one that the action is about, with what was drawn for the request. -/
def Action.Changes (draw : Draw) : Action → Operation → Prop
  | .createUser, .upsertUser freshId now _ => freshId = draw.userId ∧ now = draw.now
  | .updateUser, .updateUser _ _ => True
  | .deleteUser, .deleteUser _ => True
  | .createKey, .upsertKey freshId now _ => freshId = draw.keyId ∧ now = draw.now
  | .updateKey, .updateKey _ _ => True
  | .deleteKey, .deleteKey _ => True
  | .resetUsage, .resetUsage _ => True
  | .release, .releaseSlots _ => True
  | _, _ => False

/-- On users, the operation is on a new one or on the one that the path names. -/
def Action.Addresses (ids : List (String × String)) : Action → Operation → Prop
  | .createUser, .upsertUser _ _ given => given.id = ""
  | .updateUser, .updateUser id _ => pathId? ids = some id
  | .deleteUser, .deleteUser id => pathId? ids = some id
  | _, _ => True

namespace Action

/-- The action creates, updates or deletes a record or resets a count, which is saved. -/
def writes : Action → Bool
  | .createUser | .updateUser | .deleteUser | .createKey | .updateKey | .deleteKey
  | .resetUsage => true
  | _ => false

end Action

/-! ## Operations and their answers -/

namespace Operation

theorem runs_hashPassword (hasher : Hasher) (salt : List UInt8) (password : String) :
    (Operation.hashPassword hasher salt password).Runs (·.hashPassword hasher salt password)
      .hash :=
  ⟨fun _ => rfl, fun _ => rfl, fun _ _ => Reply.hash.inj⟩

theorem runs_authenticate (hasher : Hasher) (salt : List UInt8) (username password : String) :
    (Operation.authenticate hasher salt username password).Runs
      (·.authenticate hasher salt username password) .user :=
  ⟨fun _ => rfl, fun _ => rfl, fun _ _ => Reply.user.inj⟩

theorem runs_upsertUser (freshId : String) (now : Moment) (user : User) :
    (Operation.upsertUser freshId now user).Runs (·.upsertUser freshId now user) .user :=
  ⟨fun _ => rfl, fun _ => rfl, fun _ _ => Reply.user.inj⟩

theorem runs_updateUser (id : String) (patch : User → User) :
    (Operation.updateUser id patch).Runs (·.updateUser id patch) .user :=
  ⟨fun _ => rfl, fun _ => rfl, fun _ _ => Reply.user.inj⟩

theorem runs_deleteUser (id : String) :
    (Operation.deleteUser id).Runs (·.deleteUser id) fun _ => .done :=
  ⟨fun _ => rfl, fun _ => rfl, fun _ _ _ => rfl⟩

theorem runs_upsertKey (freshId : String) (now : Moment) (key : ApiKey) :
    (Operation.upsertKey freshId now key).Runs (·.upsertKey freshId now key) .key :=
  ⟨fun _ => rfl, fun _ => rfl, fun _ _ => Reply.key.inj⟩

theorem runs_updateKey (id : String) (patch : ApiKey → ApiKey) :
    (Operation.updateKey id patch).Runs (·.updateKey id patch) .key :=
  ⟨fun _ => rfl, fun _ => rfl, fun _ _ => Reply.key.inj⟩

theorem runs_deleteKey (id : String) :
    (Operation.deleteKey id).Runs (·.deleteKey id) fun _ => .done :=
  ⟨fun _ => rfl, fun _ => rfl, fun _ _ _ => rfl⟩

theorem runs_resetUsage (id : String) :
    (Operation.resetUsage id).Runs (·.resetUsage id) .key :=
  ⟨fun _ => rfl, fun _ => rfl, fun _ _ => Reply.key.inj⟩

end Operation

namespace Handler

variable {draw : Draw} {shape : Plan → Prop}

/-! ## Parts of handlers -/

theorem planned_json {n : Nat} (h : n < 400) (v : Json.Value) :
    (pure (.json n v) : Handler Response).Planned draw (Plan.Quiet (· < 400)) :=
  planned_answer (.answer h)

theorem planned_empty {n : Nat} (h : n < 400) :
    (pure (.empty n) : Handler Response).Planned draw (Plan.Quiet (· < 400)) :=
  planned_answer (.answer h)

section Open

variable (hopen : Plan.Open shape)

include hopen

theorem planned_wantedRole {request : Admin.UserRequest} {rest : Option Role → Handler Response}
    (h : ∀ role, (rest role).Planned draw shape) :
    (Admin.wantedRole request >>= rest).Planned draw shape := by
  unfold Admin.wantedRole
  split
  · exact h none
  · split
    · exact h _
    · exact planned_fail_bind hopen (Nat.le_refl 400) rest

theorem planned_newHash {service : Service} {request : Admin.UserRequest}
    {rest : Option String → Handler Response} (h : ∀ hash, (rest hash).Planned draw shape) :
    (Admin.newHash service draw request >>= rest).Planned draw shape := by
  unfold Admin.newHash
  split
  · exact h none
  · rename_i password _
    split
    · exact planned_fail_bind hopen (Nat.le_refl 400) rest
    · rw [bind_assoc]
      exact planned_note hopen (Operation.runs_hashPassword _ _ password) trivial
        Problem.status_ofStore fun hash => h (some hash)

theorem planned_checkOwner {request : Admin.KeyRequest} {rest : Unit → Handler Response}
    (h : (rest ()).Planned draw shape) :
    (Admin.checkOwner request >>= rest).Planned draw shape := by
  unfold Admin.checkOwner
  dsimp only
  split
  · exact h
  · rw [bind_assoc]
    refine planned_ask hopen fun s => ?_
    split
    · exact h
    · exact planned_fail_bind hopen (by decide) rest

theorem planned_findKey {id : String} {rest : ApiKey → Handler Response}
    (h : ∀ key, (rest key).Planned draw shape) :
    (Admin.findKey id >>= rest).Planned draw shape := by
  rw [Admin.findKey, bind_assoc]
  refine planned_ask hopen fun s => ?_
  split
  · exact h _
  · exact planned_fail_bind hopen (Nat.le_of_ble_eq_true rfl) rest

end Open

/-! ## Changes -/

section Changes

open Plan (Commits)

variable {service : Service} {r : Request} {own : Operation → Prop}

theorem commits_createUser
    (hown : ∀ given : User, given.id = "" → own (.upsertUser draw.userId draw.now given)) :
    (Admin.createUser service draw r).Planned draw (Commits own) := by
  unfold Admin.createUser
  refine planned_jsonBody Commits.isOpen fun request => ?_
  split
  · exact planned_fail Commits.isOpen (Nat.le_refl 400)
  · exact planned_fail Commits.isOpen (Nat.le_refl 400)
  · refine planned_wantedRole Commits.isOpen fun role => ?_
    refine planned_newHash Commits.isOpen fun hash => ?_
    exact planned_change (Operation.runs_upsertUser _ _ _) (hown _ rfl) Problem.status_ofStore
      fun user => planned_json (by decide) user.view

theorem commits_updateUser {id : String} (hown : ∀ patch, own (.updateUser id patch)) :
    (Admin.updateUser service draw id r).Planned draw (Commits own) := by
  unfold Admin.updateUser
  refine planned_jsonBody Commits.isOpen fun request => ?_
  refine planned_ask Commits.isOpen fun s => ?_
  split
  · exact planned_fail Commits.isOpen (by decide)
  · refine planned_wantedRole Commits.isOpen fun role => ?_
    refine planned_newHash Commits.isOpen fun hash => ?_
    exact planned_change (Operation.runs_updateUser id _) (hown _) Problem.status_ofStore
      fun user => planned_json (by decide) user.view

theorem commits_deleteUser {id : String} (hown : own (.deleteUser id)) :
    (Admin.deleteUser draw id).Planned draw (Commits own) :=
  planned_change (Operation.runs_deleteUser id) hown Problem.status_ofStore
    fun _ => planned_empty (by decide)

theorem commits_createKey (hown : ∀ key, own (.upsertKey draw.keyId draw.now key)) :
    (Admin.createKey draw r).Planned draw (Commits own) := by
  unfold Admin.createKey
  refine planned_jsonBody Commits.isOpen fun request => ?_
  refine planned_checkOwner Commits.isOpen ?_
  exact planned_change (Operation.runs_upsertKey _ _ _) (hown _) Problem.status_ofStore
    fun key => planned_json (by decide) key.view

theorem commits_updateKey {id : String} (hown : ∀ patch, own (.updateKey id patch)) :
    (Admin.updateKey draw id r).Planned draw (Commits own) := by
  unfold Admin.updateKey
  refine planned_jsonBody Commits.isOpen fun request => ?_
  refine planned_checkOwner Commits.isOpen ?_
  exact planned_change (Operation.runs_updateKey id _) (hown _) (Admin.status_explain id)
    fun key => planned_json (by decide) key.view

theorem commits_deleteKey {id : String} (hown : own (.deleteKey id)) :
    (Admin.deleteKey draw id).Planned draw (Commits own) :=
  planned_change (Operation.runs_deleteKey id) hown (Admin.status_explain id)
    fun _ => planned_empty (by decide)

theorem commits_resetUsage {id : String} (hown : own (.resetUsage id)) :
    (Admin.resetUsage draw id).Planned draw (Commits own) := by
  refine planned_change (Operation.runs_resetUsage id) hown (Admin.status_explain id)
    fun key => ?_
  have hserved : (200 : Nat) < 400 := by decide
  exact ⟨.ask fun s => .answer (.json 200 (Usage.of key (s.inFlightOf key.id)).view),
    .ask fun _ => .answer hserved, fun _ => rfl⟩

/-- An action that writes does so for an owner, and has a plan that commits the operation that it
is about, on what its path names. -/
theorem commits_where (service : Service) (draw : Draw) (r : Request) {action : Action}
    (h : action.writes = true) (ids : List (String × String))
    (hown : ∀ op, action.Changes draw op → action.Addresses ids op → own op) :
    ∃ act, action.handler service draw ids r = asOwner r act ∧
      act.Planned draw (Commits own) := by
  cases action with
  | createUser => exact ⟨_, rfl, commits_createUser fun given hnew => hown _ ⟨rfl, rfl⟩ hnew⟩
  | updateUser =>
    exact ⟨_, rfl, planned_withId Commits.isOpen fun id hid =>
      commits_updateUser fun patch => hown _ trivial hid⟩
  | deleteUser =>
    exact ⟨_, rfl, planned_withId Commits.isOpen fun id hid =>
      commits_deleteUser (hown _ trivial hid)⟩
  | createKey => exact ⟨_, rfl, commits_createKey fun key => hown _ ⟨rfl, rfl⟩ trivial⟩
  | updateKey =>
    exact ⟨_, rfl, planned_withId Commits.isOpen fun id _ =>
      commits_updateKey fun patch => hown _ trivial trivial⟩
  | deleteKey =>
    exact ⟨_, rfl, planned_withId Commits.isOpen fun id _ =>
      commits_deleteKey (hown _ trivial trivial)⟩
  | resetUsage =>
    exact ⟨_, rfl, planned_withId Commits.isOpen fun id _ =>
      commits_resetUsage (hown _ trivial trivial)⟩
  | _ => cases h

theorem commits_of_writes (service : Service) (draw : Draw) (r : Request) {action : Action}
    (h : action.writes = true) (ids : List (String × String)) :
    ∃ act, action.handler service draw ids r = asOwner r act ∧
      act.Planned draw (Commits (action.Changes draw)) :=
  commits_where service draw r h ids fun _ hchanges _ => hchanges

end Changes

/-! ## Questions -/

section Questions

open Plan (Quiet)

variable {service : Service} {r : Request}

/-- A plan that only asks, whatever it answers. -/
def Asks (draw : Draw) (h : Handler Response) : Prop := h.Planned draw (Quiet fun _ => True)

theorem asks_open : Plan.Open (Quiet fun _ => True) := Quiet.isOpen fun _ _ => trivial

theorem asks_answer (response : Response) : Asks draw (pure response) :=
  planned_answer (.answer trivial)

theorem asks_login : Asks draw (Portal.login service draw r) := by
  unfold Portal.login
  refine planned_jsonBody asks_open fun request => ?_
  exact planned_note asks_open (Operation.runs_authenticate _ _ _ _) trivial
    Problem.status_ofStore fun user => planned_ask asks_open fun s => asks_answer _

theorem asks_getUser (id : String) : Asks draw (Admin.getUser id) := by
  refine planned_ask asks_open fun s => ?_
  split
  · exact asks_answer _
  · exact planned_fail asks_open (by decide)

/-- The actions that write nothing, enter no gate and release no slots. -/
theorem asks_of_not_writes {action : Action} (h : action.writes = false)
    (hgate : action ≠ .checkAccess) (hrelease : action ≠ .release) (ids : List (String × String)) :
    Asks draw (action.handler service draw ids r) := by
  cases action with
  | health => exact asks_answer _
  | ready => exact planned_ask asks_open fun _ => asks_answer _
  | live => exact asks_answer _
  | checkAccess => exact absurd rfl hgate
  | login => exact asks_login
  | me =>
    exact planned_requireKey asks_open fun _ => planned_ask asks_open fun _ => asks_answer _
  | portalUsage =>
    exact planned_requireKey asks_open fun _ => planned_ask asks_open fun _ => asks_answer _
  | state => exact planned_asOwner asks_open (planned_ask asks_open fun _ => asks_answer _)
  | usage => exact planned_asOwner asks_open (planned_ask asks_open fun _ => asks_answer _)
  | listUsers => exact planned_asOwner asks_open (planned_ask asks_open fun _ => asks_answer _)
  | getUser =>
    exact planned_asOwner asks_open (planned_withId asks_open fun id _ => asks_getUser id)
  | listKeys => exact planned_asOwner asks_open (planned_ask asks_open fun _ => asks_answer _)
  | getKey =>
    exact planned_asOwner asks_open (planned_withId asks_open fun _ _ =>
      planned_findKey asks_open fun _ => asks_answer _)
  | release => exact absurd rfl hrelease
  | _ => cases h

end Questions

end Handler
end Turnstile
