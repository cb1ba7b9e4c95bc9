import Turnstile.Proofs.Service.Alone
import Turnstile.Proofs.Service.Authorization
import Turnstile.Proofs.Service.Upkeep

/-! What requests can rely on when they are answered. However the turns of several requests fall,
the file holds ever newer copies of the store, and once a save has answered well it holds one that
is at least as new as the question. A change that was answered well is therefore in the file from
then on, and so is a counted use whose save went well. -/

namespace Turnstile

open Http (Request Response Problem)

/-! ## What the file shows -/

/-- A read of the path finds a copy of the store at that moment, and decodes it. -/
def Shared.Shows (path : String) (sh : Shared) (m : Nat) : Prop :=
  ∃ s now, sh.history[m]? = some s ∧ sh.files.contents path = .ok (s.payload now) ∧
    ∀ later, RecordSet.read? later (s.payload now) = some (s.stamped now).normalized

namespace Workplace

/-- A store with a file before its first request. -/
structure Opens (path : String) (w : Workplace) : Prop where
  backed : w.shared.store.path = some path
  wellFormed : w.shared.files.WellFormed
  earlier : w.shared.earlier = []
  written : w.shared.written = []
  holder : w.shared.holder = none
  tasks : w.tasks = []

/-- What holds at some point of a run, which begins at the first one, and at every later point. -/
structure Durable (path : String) (start w u : Workplace) : Prop where
  history : w.shared.history <+: u.shared.history
  /-- Each store is what one operation made of the store before. -/
  linked : u.shared.history.IsChain Store.Becomes
  written : w.shared.written <+: u.shared.written
  /-- Copies are put in place in the order of their moments. -/
  ordered : u.shared.written.Pairwise (· ≤ ·)
  /-- The file shows the copy that was put in place last. -/
  shows : ∀ m, u.shared.written.getLast? = some m → u.shared.Shows path m
  /-- Before the first copy the file stays as it was. Where there was none, one can turn up only by
  a path that leads up by `..` from directories that are made. -/
  kept : u.shared.written = [] → ∀ bytes,
    (start.shared.files.contents path = .ok bytes → u.shared.files.contents path = .ok bytes) ∧
      (".." ∉ Path.names path → u.shared.files.contents path = .ok bytes →
        start.shared.files.contents path = .ok bytes)
  /-- After a save that has answered well, the file shows a copy from when it was asked for or
  later. -/
  saved : ∀ task ∈ w.tasks, ∀ called, .saved called (.ok ()) ∈ task.log →
    ∃ m, called ≤ m ∧ u.shared.Shows path m
  /-- After an answer without an error to a request that commits, the file shows a copy with its
  change. -/
  changed : ∀ task ∈ w.tasks, ∀ (own : Operation → Prop) (response : Response),
    task.plan.Commits own → task.stage = .ready (.answer response) → response.status < 400 →
      ∃ op reply since, own op ∧ .operated op (.ok reply) since ∈ task.log ∧
        u.shared.Recorded (.operated op (.ok reply) since) ∧
          ∃ m, since < m ∧ u.shared.Shows path m
  /-- A request that saves what it did has asked for a save after it, and after one that answered
  well the file shows a copy with what it did. -/
  used : ∀ task ∈ w.tasks, ∀ (own : Operation → Prop) (response : Response),
    task.plan.Saves own → task.stage = .ready (.answer response) →
      ∀ op reply since, own op → .operated op (.ok reply) since ∈ task.log →
        u.shared.Recorded (.operated op (.ok reply) since) ∧
          ∃ called answer, since < called ∧
            [.operated op (.ok reply) since, .saved called answer].Sublist task.log ∧
            (answer = .ok () → ∃ m, called ≤ m ∧ u.shared.Shows path m)

variable {path : String} {start w u : Workplace} {i : Nat} {task : Task}

theorem Opens.sound (h : start.Opens path) : start.Sound path start.shared.files := by
  have hnone {m : Nat} (hm : m ∈ start.shared.written) : False := by
    rw [h.written] at hm
    exact List.not_mem_nil hm
  refine ⟨⟨h.backed, ?_, h.wellFormed, ?_, fun m hm => (hnone hm).elim,
    fun m hm => (hnone (List.mem_of_getLast? hm)).elim, fun _ _ => id, fun _ _ _ => id⟩, ?_⟩
  · rw [Shared.history, h.earlier]
    exact .singleton _
  · rw [h.written]
    exact .nil
  · intro i task htask
    rw [h.tasks] at htask
    cases htask

/-! ## Points of a run -/

theorem shows_last {old : FileTree} (hu : u.Sound path old) {m : Nat}
    (hm : u.shared.written.getLast? = some m) : u.shared.Shows path m := by
  obtain ⟨s, now, hs, hread⟩ := hu.shared.finds.last m hm
  exact ⟨s, now, hs, hread, s.read?_payload now⟩

/-- The file shows a copy at least as new as each that was put in place. -/
theorem shows_of_mem {old : FileTree} (hu : u.Sound path old) {m : Nat}
    (hm : m ∈ u.shared.written) : ∃ m', m ≤ m' ∧ u.shared.Shows path m' := by
  cases hlast : u.shared.written.getLast? with
  | none =>
    rw [List.getLast?_eq_none_iff.mp hlast] at hm
    exact absurd hm List.not_mem_nil
  | some m' =>
    refine ⟨m', ?_, shows_last hu hlast⟩
    obtain ⟨front, hfront⟩ := List.getLast?_eq_some_iff.mp hlast
    have hordered := hu.shared.ordered
    rw [hfront] at hm hordered
    rcases List.mem_append.mp hm with hold | hnew
    · exact (List.pairwise_append.mp hordered).2.2 m hold m' (List.mem_singleton_self m')
    · exact (List.mem_singleton.mp hnew).le

/-- What a save that answered well has promised. -/
theorem shows_of_saved {old : FileTree} (hu : u.Sound path old) {called : Nat}
    (hsaved : u.shared.Recorded (.saved called (.ok ()))) :
    ∃ m, called ≤ m ∧ u.shared.Shows path m := by
  obtain ⟨m, hm, hcalled⟩ := hsaved rfl
  obtain ⟨m', hm', hshows⟩ := shows_of_mem hu hm
  exact ⟨m', hcalled.trans hm', hshows⟩

/-- A save that stands in the log behind an operation was asked for after it. -/
theorem called_of_sublist {old : FileTree} {sh : Shared} (htask : task.Sound path old i sh)
    {op : Operation} {reply : Except StoreError Reply} {since called : Nat}
    {answer : Except StoreError Unit}
    (h : [.operated op reply since, .saved called answer].Sublist task.log) : since < called := by
  have hordered := htask.ordered.sublist h
  exact (List.pairwise_cons.mp hordered).1 _ (List.mem_singleton_self _)

theorem durable (hstart : start.Opens path) (h : Reaches path start w) (h' : Reaches path w u) :
    Durable path start w u := by
  have hw := h.sound hstart.sound
  have hu := h'.sound hw
  have hfollows := h'.follows
  have hsound {task : Task} (htask : task ∈ w.tasks) :
      ∃ i, task.Sound path start.shared.files i w.shared := by
    obtain ⟨i, hi⟩ := List.mem_iff_getElem?.mp htask
    exact ⟨i, hw.tasks i task hi⟩
  have hrecorded {task : Task} (htask : task ∈ w.tasks) {entry : Entry}
      (hentry : entry ∈ task.log) : u.shared.Recorded entry := by
    obtain ⟨i, hi⟩ := hsound htask
    exact (hi.recorded entry hentry).follows hfollows
  refine ⟨hfollows.history, hu.shared.linked, hfollows.written, hu.shared.ordered,
    fun m => shows_last hu, ?_, ?_, ?_, ?_⟩
  · exact fun hnone bytes => ⟨hu.shared.finds.kept hnone bytes,
      fun hdown => hu.shared.finds.none hnone hdown bytes⟩
  · exact fun task htask called hsaved => shows_of_saved hu (hrecorded htask hsaved)
  · intro task htask own response hplan hstage hstatus
    obtain ⟨i, hi⟩ := hsound htask
    have hcourse := hi.course
    rw [hstage] at hcourse
    obtain ⟨op, reply, since, called, hop, hlog⟩ := hplan.saved hcourse hstatus
    obtain ⟨hchanged, hsaved⟩ := List.cons_subset.mp hlog.subset
    obtain ⟨m, hm, hshows⟩ := shows_of_saved hu (hrecorded htask (hsaved List.mem_cons_self))
    exact ⟨op, reply, since, hop, hchanged, hrecorded htask hchanged, m,
      (called_of_sublist hi hlog).trans_le hm, hshows⟩
  · intro task htask own response hplan hstage op reply since hop hmem
    obtain ⟨i, hi⟩ := hsound htask
    have hcourse := hi.course
    rw [hstage] at hcourse
    obtain ⟨called, answer, hlog⟩ := hplan.saved hcourse hop hmem
    refine ⟨hrecorded htask hmem, called, answer, called_of_sublist hi hlog, hlog, ?_⟩
    rintro rfl
    obtain ⟨-, hsaved⟩ := List.cons_subset.mp hlog.subset
    exact shows_of_saved hu (hrecorded htask (hsaved List.mem_cons_self))

end Workplace

/-! ## Requests that write -/

/-- The operation completes a request by the id of its key and counts it. -/
def Operation.CountsById : Operation → Prop
  | .endRequestById _ counted => counted = true
  | _ => False

namespace Gate

variable {service : Service} {r : Request} {answer : Grant → Response}

/-- The turns of a request that goes through the gate. -/
def plan (service : Service) (r : Request) (answer : Grant → Response) : Plan :=
  .ask fun s =>
    match s.checkAccess r.carrier with
    | .error e => .answer (Problem.ofAccess e).toResponse
    | .ok grant => .operate (.beginRequest grant.principal) fun
      | .ok (.key admitted) => leave grant admitted
      | .error e => .answer (Problem.ofStore e).toResponse
      | .ok _ => .answer (.empty 500)
where
  /-- The completion, and the save where the use is to be saved. -/
  leave (grant : Grant) (admitted : ApiKey) : Plan :=
    .operate (.endRequestById admitted.id (answer grant).succeeded) fun
      | .error _ => .answer (answer grant)
      | .ok _ =>
        if (answer grant).succeeded && service.saveOnUse then .save fun _ => .answer (answer grant)
        else .answer (answer grant)

theorem run_leave (draw : Draw) (grant : Grant) (admitted : ApiKey) (w : World) :
    (plan.leave service answer grant admitted).run draw w = (answer grant,
      complete service draw ⟨grant, admitted.id⟩ (answer grant).succeeded w) := by
  simp only [plan.leave, Plan.run, Store.answer, Store.apply, complete]
  rcases w.store.endRequestById admitted.id (answer grant).succeeded with ⟨e | key, s⟩
  · rfl
  · simp only [Except.map]
    split <;> rfl

theorem answer_throughGate (draw : Draw) (w : World) :
    (throughGate service draw r answer).answer w = (plan service r answer).run draw w := by
  rw [throughGate, Handler.answer_bind, enter, plan, Plan.run]
  cases w.store.checkAccess r.carrier with
  | error e => rfl
  | ok grant =>
    simp only [Plan.run, Store.answer, Store.apply]
    rcases w.store.beginRequest grant.principal with ⟨e | key, s⟩
    · rfl
    · simp only [Except.map, run_leave]
      rfl

theorem saves_plan (hsaves : service.saveOnUse = true) :
    (plan service r answer).Saves Operation.CountsById := by
  refine .ask fun s => ?_
  cases s.checkAccess r.carrier with
  | error e => exact .answer _
  | ok grant =>
    refine .operate (fun h => h.elim) fun reply => ?_
    rcases reply with e | reply
    · exact .answer _
    · cases reply with
      | key admitted =>
        refine .operate (fun hcounted reply => ?_) fun reply => ?_
        · have hserved : (answer grant).succeeded = true := hcounted
          exact ⟨fun _ => .answer (answer grant), by simp [hserved, hsaves]⟩
        · rcases reply with e | reply
          · exact .answer _
          · dsimp only
            split
            · exact .save fun _ => .answer _
            · exact .answer _
      | _ => exact .answer _

end Gate

namespace Workplace

/-- In every run of a store with a file, the file goes from copy to copy of ever later moments, and
what was saved well is in it from then on. Every action that writes commits the operation that it
is about, and where uses are saved, the gate asks for a save after each counted completion. -/
theorem changes_durable :
    (∀ (path : String) (start w u : Workplace), start.Opens path → Reaches path start w →
      Reaches path w u → Durable path start w u) ∧
    (∀ (service : Service) (draw : Draw) (ids : List (String × String)) (r : Request)
      (action : Action), action.writes = true →
        (action.handler service draw ids r).Planned draw (Plan.Commits (action.Changes draw))) ∧
    ∀ (service : Service) (draw : Draw) (r : Request) (answer : Grant → Response),
      service.saveOnUse = true → (Gate.plan service r answer).Saves Operation.CountsById ∧
        ∀ w, (throughGate service draw r answer).answer w =
          (Gate.plan service r answer).run draw w := by
  refine ⟨fun path start w u => durable, ?_, ?_⟩
  · intro service draw ids r action hwrites
    obtain ⟨act, hhandler, hact⟩ := Handler.commits_of_writes service draw r hwrites ids
    rw [hhandler]
    exact Handler.planned_asOwner Plan.Commits.isOpen hact
  · exact fun service draw r answer hsaves =>
      ⟨Gate.saves_plan hsaves, Gate.answer_throughGate draw⟩

/-- The store of the used key, with a file that is not there yet. -/
def filedMaster : Workplace :=
  ⟨⟨{ Service.masterStore with path := some "data/keys.json" }, .empty, [], [], none⟩, []⟩

theorem changes_durable_selfReset :
    filedMaster.Opens "data/keys.json" ∧ ∃ w task response op reply since m,
      Reaches "data/keys.json" filedMaster w ∧ task ∈ w.tasks ∧
        task.stage = .ready (.answer response) ∧ response.status < 400 ∧
        Action.resetUsage.Changes Service.masterDraw op ∧
        w.shared.Recorded (.operated op (.ok reply) since) ∧ since < m ∧
        w.shared.Shows "data/keys.json" m := by
  have hopens : filedMaster.Opens "data/keys.json" :=
    ⟨rfl, FileTree.wellFormed_empty, rfl, rfl, rfl, rfl⟩
  obtain ⟨hruns, hcommits, -⟩ := changes_durable
  obtain ⟨plan, hplan, hrun⟩ := hcommits Service.masterService Service.masterDraw
    [("key_id", "key_1")] Service.selfReset .resetUsage rfl
  have hleaves : plan.LeavesFile Service.masterDraw
      ⟨filedMaster.shared.store, filedMaster.shared.files⟩ :=
    hplan.leavesFile (fun op => Operation.leavesFile_of_changes) _
  obtain ⟨sh, log, hreaches, -⟩ := reaches_run filedMaster hleaves rfl
    ⟨FileTree.wellFormed_empty, by decide, fun _ => Replacement.unused_empty⟩ rfl
  have hstatus : (plan.run Service.masterDraw
      ⟨filedMaster.shared.store, filedMaster.shared.files⟩).1.status < 400 := by
    rw [← hrun]
    decide +kernel
  obtain ⟨op, reply, since, hop, -, hrecorded, m, hm, hshows⟩ :=
    (hruns _ _ _ _ hopens hreaches .refl).changed _ (List.mem_singleton_self _) _ _ hplan rfl
      hstatus
  exact ⟨hopens, _, _, _, op, reply, since, m, hreaches, List.mem_singleton_self _, rfl, hstatus,
    hop, hrecorded, hm, hshows⟩

end Workplace
end Turnstile
