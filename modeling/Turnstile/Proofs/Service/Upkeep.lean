import Mathlib.Data.List.Chain
import Turnstile.Proofs.Service.Workplace

/-! What every turn keeps. Only the task that holds the lock moves files, and it took its copy after
the lock, so its copy is at least as new as all that were put in place before. Until its own copy is
in place, the file says what it said when the lock was taken. -/

namespace Turnstile

variable {path : String} {old : FileTree} {i j : Nat} {sh sh' : Shared} {task task' : Task}

/-! ## The invariant of what is shared -/

namespace Shared

/-- What a read of the path finds in these files: the copy that was put in place last. Before there
is one, it finds what it found at the start, and nothing else unless the path goes up by `..`. -/
structure Finds (path : String) (old : FileTree) (sh : Shared) (files : FileTree) : Prop where
  last : ∀ m, sh.written.getLast? = some m → ∃ s now, sh.history[m]? = some s ∧
    files.contents path = .ok (s.payload now)
  kept : sh.written = [] → ∀ bytes, old.contents path = .ok bytes →
    files.contents path = .ok bytes
  none : sh.written = [] → ".." ∉ Path.names path → ∀ bytes, files.contents path = .ok bytes →
    old.contents path = .ok bytes

/-- What every turn keeps, for a path that held what it held in these files. -/
structure Sound (path : String) (old : FileTree) (sh : Shared) : Prop where
  backed : sh.store.path = some path
  linked : sh.history.IsChain Store.Becomes
  wellFormed : sh.files.WellFormed
  ordered : sh.written.Pairwise (· ≤ ·)
  bounded : ∀ m ∈ sh.written, m ≤ sh.now
  finds : sh.Finds path old sh.files

theorem Finds.follows {files : FileTree} (h : sh.Finds path old files) (hfollows : sh.Follows sh')
    (hwritten : sh'.written = sh.written) : sh'.Finds path old files := by
  refine ⟨fun m hm => ?_, fun hnone => h.kept (hwritten ▸ hnone), fun hnone =>
    h.none (hwritten ▸ hnone)⟩
  obtain ⟨s, now, hs, hread⟩ := h.last m (hwritten ▸ hm)
  exact ⟨s, now, hfollows.history_eq hs, hread⟩

/-- A replacement that is under way, with the copy of that moment. -/
structure Under (path : String) (old : FileTree) (sh : Shared) (taken : Nat) (r : Replacement)
    (phase : Replacement.Phase) : Prop where
  target : r.target = path
  tag : '/' ∉ r.tag.toList
  copy : ∃ s now, sh.history[taken]? = some s ∧ r.bytes = s.payload now
  newest : ∀ m ∈ sh.written, m ≤ taken
  /-- The files that it began with, in which a read found what it finds until the end. -/
  base : ∃ base : FileTree, base.WellFormed ∧ r.Unused base ∧ r.Around base sh.files ∧
    r.Holds base phase sh.files ∧ (phase ≠ .done → sh.Finds path old base)
  placed : phase = .done → taken ∈ sh.written

variable {taken : Nat} {r : Replacement} {phase phase' : Replacement.Phase} {after : FileTree}

theorem Under.follows (h : sh.Under path old taken r phase) (hfollows : sh.Follows sh')
    (hfiles : sh'.files = sh.files) (hwritten : sh'.written = sh.written) :
    sh'.Under path old taken r phase := by
  obtain ⟨s, now, hs, hbytes⟩ := h.copy
  obtain ⟨base, hbase, hunused, haround, hholds, hfinds⟩ := h.base
  rw [← hfiles] at haround hholds
  refine ⟨h.target, h.tag, ⟨s, now, hfollows.history_eq hs, hbytes⟩, ?_,
    ⟨base, hbase, hunused, haround, hholds,
      fun hphase => (hfinds hphase).follows hfollows hwritten⟩, ?_⟩
  · rw [hwritten]
    exact h.newest
  · rw [hwritten]
    exact h.placed

/-! ## Turns that move no files -/

namespace Sound

theorem operate (h : sh.Sound path old) {op : Operation} (hop : op.LeavesFile) :
    (sh.operate op).Sound path old := by
  have hfollows := sh.follows_operate op
  refine ⟨(hop.path_apply sh.store).trans h.backed, ?_, h.wellFormed, h.ordered,
    fun m hm => (h.bounded m hm).trans hfollows.now_le, h.finds.follows hfollows rfl⟩
  rw [history_operate, List.isChain_append]
  refine ⟨h.linked, .singleton _, ?_⟩
  intro s hs t ht
  rw [history, List.getLast?_concat, Option.mem_some_iff] at hs
  rw [List.head?_singleton, Option.mem_some_iff] at ht
  exact ⟨op, hop, by rw [← hs, ht]⟩

/-- Who holds the lock is of no concern. -/
theorem hold (h : sh.Sound path old) (holder : Option Nat) :
    ({ sh with holder } : Shared).Sound path old :=
  ⟨h.backed, h.linked, h.wellFormed, h.ordered, h.bounded, h.finds.last, h.finds.kept, h.finds.none⟩

/-- A copy of the store as it is now is at least as new as all that are in place. -/
theorem copy (h : sh.Sound path old) (now : Moment) {tag : String} (htag : '/' ∉ tag.toList)
    (hunused : (sh.store.replacement path now tag).Unused sh.files) :
    sh.Under path old sh.now (sh.store.replacement path now tag) .preparing := by
  refine ⟨rfl, htag, ⟨sh.store, now, sh.history_now, Store.replacement_bytes⟩, h.bounded,
    ⟨sh.files, h.wellFormed, hunused, .refl h.wellFormed, fun _ => rfl, fun _ => h.finds⟩,
    fun hdone => ?_⟩
  cases hdone

end Sound

/-! ## Moves of files -/

theorem not_done_of_moves {u : FileTree} (h : r.Moves (phase, u) (phase', after)) :
    phase ≠ .done := by
  rintro rfl
  cases h

/-- Before the copy is in place, a read finds what it found in the files that the replacement began
with. -/
theorem Finds.untouched {base : FileTree} (h : sh.Finds path old base) (htarget : r.target = path)
    (htag : '/' ∉ r.tag.toList) (hbase : base.WellFormed) (haround : r.Around base after)
    (huntouched : r.Untouched base after) : sh.Finds path old after := by
  have hread {bytes : List UInt8} (hbytes : base.contents path = .ok bytes) :
      after.contents path = .ok bytes := by
    rw [← hbytes]
    refine FileTree.contents_of_ne haround.grown (fun _ => huntouched.file?_of_ne_none) ?_
    rw [hbytes]
    nofun
  refine ⟨fun m hm => ?_, fun hnone bytes hbytes => hread (h.kept hnone bytes hbytes),
    fun hnone hdown bytes hbytes => h.none hnone hdown bytes ?_⟩
  · obtain ⟨s, now, hs, hcontents⟩ := h.last m hm
    exact ⟨s, now, hs, hread hcontents⟩
  · rw [← htarget] at hdown hbytes ⊢
    exact huntouched.contents_of_contents htag hbase haround hdown hbytes

/-- A move that does not put the copy in place. -/
theorem Under.move (h : sh.Under path old taken r phase)
    (hmove : r.Moves (phase, sh.files) (phase', after)) (hphase : phase' ≠ .done) :
    ({ sh with files := after } : Shared).Under path old taken r phase' ∧
      after.WellFormed ∧ sh.Finds path old after := by
  obtain ⟨base, hbase, hunused, haround, hholds, hfinds⟩ := h.base
  have hbefore := hfinds (not_done_of_moves hmove)
  obtain ⟨haround', hholds'⟩ := Replacement.holds_of_moves h.tag hunused hmove haround hholds
  refine ⟨⟨h.target, h.tag, h.copy, h.newest,
    ⟨base, hbase, hunused, haround', hholds', fun _ => ⟨hbefore.1, hbefore.2, hbefore.3⟩⟩,
    fun hdone => absurd hdone hphase⟩, haround'.wellFormed, ?_⟩
  exact hbefore.untouched h.target h.tag hbase haround' (hholds'.untouched hphase)

/-- The move that puts the copy in place. -/
theorem Under.place (h : sh.Under path old taken r phase) (hsound : sh.Sound path old)
    (htaken : taken ≤ sh.now) (hmove : r.Moves (phase, sh.files) (.done, after)) :
    ({ sh with files := after, written := sh.written ++ [taken] } : Shared).Under path old taken r
        .done ∧
      ({ sh with files := after, written := sh.written ++ [taken] } : Shared).Sound path old := by
  obtain ⟨base, hbase, hunused, haround, hholds, -⟩ := h.base
  obtain ⟨haround', hreplaced⟩ := Replacement.holds_of_moves h.tag hunused hmove haround hholds
  -- the copy was taken after the lock, so all that is in place is of its moment or earlier
  have hmem : ∀ m ∈ sh.written ++ [taken], m ≤ taken := by
    rw [List.forall_mem_append, List.forall_mem_singleton]
    exact ⟨h.newest, Nat.le_refl taken⟩
  refine ⟨⟨h.target, h.tag, h.copy, hmem,
    ⟨base, hbase, hunused, haround', hreplaced, fun hdone => absurd rfl hdone⟩,
    fun _ => List.mem_append_right _ (List.mem_singleton_self taken)⟩,
    hsound.backed, hsound.linked, haround'.wellFormed, ?_, fun m hm => (hmem m hm).trans htaken, ?_,
    ?_, ?_⟩
  · rw [List.pairwise_append]
    exact ⟨hsound.ordered, List.pairwise_singleton _ _,
      fun m hm => List.forall_mem_singleton.mpr (h.newest m hm)⟩
  · intro m hm
    rw [List.getLast?_concat, Option.some.injEq] at hm
    subst hm
    obtain ⟨s, now, hs, hbytes⟩ := h.copy
    refine ⟨s, now, hs, ?_⟩
    rw [← h.target, ← hbytes]
    exact Replacement.Replaced.contents hreplaced
  · intro hnone
    simp at hnone
  · intro hnone
    simp at hnone

end Shared

/-! ## The invariant of a task -/

/-- What is left of the plan when the turns that are over are counted. -/
def Stage.plan : Stage → Plan
  | .ready plan => plan
  | .waiting _ next | .locked _ next | .replacing _ _ _ _ next => .save next

/-- The moment of the turn under way. -/
def Stage.moment (now : Nat) : Stage → Nat
  | .ready _ => now
  | .waiting called _ | .locked called _ | .replacing called _ _ _ _ => called

/-- The first moment at which the turn had done what it did, or was asked for if it was a save. -/
def Entry.moment : Entry → Nat
  | .operated _ _ since => since + 1
  | .saved called _ => called

/-- What the entry says happened. -/
def Shared.Recorded (sh : Shared) : Entry → Prop
  | .operated op answer since => ∃ s, sh.history[since]? = some s ∧ s.answer op = answer ∧
      sh.history[since + 1]? = some (s.apply op)
  | .saved called answer => answer = .ok () → ∃ m ∈ sh.written, called ≤ m

/-- What holds while the task at that place is in the stage. -/
inductive Stage.Sound (path : String) (old : FileTree) (i : Nat) (sh : Shared) : Stage → Prop
  | ready (plan : Plan) : Sound path old i sh (.ready plan)
  | waiting {called : Nat} {next : Except StoreError Unit → Plan} (hcalled : called ≤ sh.now) :
      Sound path old i sh (.waiting called next)
  | locked {called : Nat} {next : Except StoreError Unit → Plan} (hcalled : called ≤ sh.now)
      (hholder : sh.holder = some i) : Sound path old i sh (.locked called next)
  | replacing {called taken : Nat} {r : Replacement} {phase : Replacement.Phase}
      {next : Except StoreError Unit → Plan} (hcalled : called ≤ taken) (htaken : taken ≤ sh.now)
      (hholder : sh.holder = some i) (hunder : sh.Under path old taken r phase) :
      Sound path old i sh (.replacing called taken r phase next)

/-- The log tells what the task has done of its plan, in the order in which it happened. -/
structure Task.Sound (path : String) (old : FileTree) (i : Nat) (sh : Shared) (task : Task) :
    Prop where
  course : task.plan.After task.log task.stage.plan
  recorded : ∀ entry ∈ task.log, sh.Recorded entry
  ordered : task.log.Pairwise (·.moment ≤ ·.moment)
  past : ∀ entry ∈ task.log, entry.moment ≤ task.stage.moment sh.now
  stage : task.stage.Sound path old i sh

theorem Shared.Recorded.follows {entry : Entry} (h : sh.Recorded entry)
    (hfollows : sh.Follows sh') : sh'.Recorded entry := by
  cases entry with
  | operated op answer since =>
    obtain ⟨s, hs, hanswer, hafter⟩ := h
    exact ⟨s, hfollows.history_eq hs, hanswer, hfollows.history_eq hafter⟩
  | saved called answer =>
    intro hok
    obtain ⟨m, hm, hcalled⟩ := h hok
    exact ⟨m, hfollows.written.subset hm, hcalled⟩

theorem Shared.recorded_operate (sh : Shared) (op : Operation) :
    (sh.operate op).Recorded (.operated op (sh.store.answer op) sh.now) := by
  refine ⟨sh.store, (sh.follows_operate op).history_eq sh.history_now, rfl, ?_⟩
  rw [← sh.now_operate op]
  exact (sh.operate op).history_now

theorem Replacement.answer?_cases {r : Replacement} {phase : Replacement.Phase}
    {answer : Except StoreError Unit} (h : r.answer? phase = some answer) :
    phase = .done ∧ answer = .ok () ∨ ∃ detail, answer = .error (.io detail) := by
  unfold Replacement.answer? at h
  split at h
  · exact .inl ⟨rfl, (Option.some.inj h).symm⟩
  · exact .inr ⟨_, (Option.some.inj h).symm⟩
  · exact .inr ⟨_, (Option.some.inj h).symm⟩
  · cases h

theorem Stage.Sound.moment_le {stage : Stage} (h : stage.Sound path old i sh) :
    stage.moment sh.now ≤ sh.now := by
  cases h with
  | ready => exact Nat.le_refl _
  | waiting hcalled => exact hcalled
  | locked hcalled => exact hcalled
  | replacing hcalled htaken => exact hcalled.trans htaken

namespace Task.Sound

theorem begin (plan : Plan) : Task.Sound path old i sh ⟨plan, [], .ready plan⟩ where
  course := Plan.After.start
  recorded := fun _ h => absurd h List.not_mem_nil
  ordered := .nil
  past := fun _ h => absurd h List.not_mem_nil
  stage := .ready plan

/-- The log stays as it is. -/
theorem keep (h : task.Sound path old i sh) (hfollows : sh.Follows sh') {stage : Stage}
    (hcourse : task.plan.After task.log stage.plan)
    (hmoment : task.stage.moment sh.now ≤ stage.moment sh'.now)
    (hstage : stage.Sound path old i sh') :
    ({ task with stage } : Task).Sound path old i sh' :=
  ⟨hcourse, fun entry hentry => (h.recorded entry hentry).follows hfollows, h.ordered,
    fun entry hentry => (h.past entry hentry).trans hmoment, hstage⟩

/-- A turn is over and goes to the log. -/
theorem log (h : task.Sound path old i sh) (hfollows : sh.Follows sh') {entry : Entry}
    {plan : Plan} (hcourse : task.plan.After (task.log ++ [entry]) plan)
    (hrecorded : sh'.Recorded entry) (hmoment : task.stage.moment sh.now ≤ entry.moment)
    (hpast : entry.moment ≤ sh'.now) :
    ({ task with log := task.log ++ [entry], stage := .ready plan } : Task).Sound path old i
      sh' := by
  have hbefore : ∀ e ∈ task.log, e.moment ≤ entry.moment := fun e he => (h.past e he).trans hmoment
  refine ⟨hcourse, ?_, ?_, ?_, .ready plan⟩
  · rw [List.forall_mem_append, List.forall_mem_singleton]
    exact ⟨fun e he => (h.recorded e he).follows hfollows, hrecorded⟩
  · rw [List.pairwise_append]
    exact ⟨h.ordered, List.pairwise_singleton _ _,
      fun e he => List.forall_mem_singleton.mpr (hbefore e he)⟩
  · rw [List.forall_mem_append, List.forall_mem_singleton]
    exact ⟨fun e he => (hbefore e he).trans hpast, hpast⟩

end Task.Sound

/-! ## Turns -/

namespace Workplace.Turn

/-- What a turn keeps of what is shared, and of its own task. -/
theorem sound (h : Turn path i sh task sh' task') (hsh : sh.Sound path old)
    (htask : task.Sound path old i sh) : sh'.Sound path old ∧ task'.Sound path old i sh' := by
  have hfollows := h.follows
  have hcourse := htask.course
  have hsound := htask.stage
  have hmoment := hsound.moment_le
  cases h with
  | ask hstage =>
    rw [hstage] at hcourse
    exact ⟨hsh, htask.keep hfollows (hcourse.ask sh.store) hmoment (.ready _)⟩
  | @operate op next hstage hop =>
    rw [hstage] at hcourse
    exact ⟨hsh.operate hop, htask.log hfollows (hcourse.operate sh.store sh.now)
      (sh.recorded_operate op) (hmoment.trans (Nat.le_succ _)) (sh.now_operate op).ge⟩
  | call hstage =>
    rw [hstage] at hcourse
    exact ⟨hsh, htask.keep hfollows hcourse hmoment (.waiting (Nat.le_refl _))⟩
  | @lock called next hstage hfree =>
    have hsame := congrArg (Stage.moment sh.now) hstage
    rw [hstage] at hcourse hmoment
    exact ⟨hsh.hold _,
      htask.keep hfollows hcourse hsame.le (.locked hmoment rfl)⟩
  | @copy called next hstage now tag htag hunused =>
    have hsame := congrArg (Stage.moment sh.now) hstage
    rw [hstage] at hcourse hmoment hsound
    cases hsound with
    | locked hcalled hholder =>
      exact ⟨hsh, htask.keep hfollows hcourse hsame.le
        (.replacing hmoment (Nat.le_refl _) hholder (hsh.copy now htag hunused))⟩
  | @move called taken r phase phase' next after hstage hmove hphase =>
    have hsame := congrArg (Stage.moment sh.now) hstage
    rw [hstage] at hcourse hsound
    cases hsound with
    | replacing hcalled htaken hholder hunder =>
      obtain ⟨hunder', hformed, hfinds⟩ := hunder.move hmove hphase
      exact ⟨⟨hsh.backed, hsh.linked, hformed, hsh.ordered, hsh.bounded,
          hfinds.1, hfinds.2, hfinds.3⟩,
        htask.keep hfollows hcourse hsame.le (.replacing hcalled htaken hholder hunder')⟩
  | @place called taken r phase next after hstage hmove =>
    have hsame := congrArg (Stage.moment sh.now) hstage
    rw [hstage] at hcourse hsound
    cases hsound with
    | replacing hcalled htaken hholder hunder =>
      obtain ⟨hunder', hsh'⟩ := hunder.place hsh htaken hmove
      exact ⟨hsh',
        htask.keep hfollows hcourse hsame.le (.replacing hcalled htaken hholder hunder')⟩
  | @finish called taken r phase next answer hstage hanswer =>
    have hsame := congrArg (Stage.moment sh.now) hstage
    rw [hstage] at hcourse hsound hmoment
    cases hsound with
    | replacing hcalled htaken hholder hunder =>
      have hcases := Replacement.answer?_cases hanswer
      refine ⟨hsh.hold _, htask.log hfollows
        (hcourse.save called (hcases.imp_left And.right)) ?_ hsame.le hmoment⟩
      rintro rfl
      rcases hcases with ⟨hdone, -⟩ | ⟨detail, herror⟩
      · exact ⟨taken, hunder.placed hdone, hcalled⟩
      · cases herror

/-- While another task holds the lock, nobody else takes it, gives it back or moves files. -/
theorem untouched (h : Turn path i sh task sh' task') (htask : task.Sound path old i sh)
    (hne : j ≠ i) (hholder : sh.holder = some j) :
    sh'.holder = some j ∧ sh'.files = sh.files ∧ sh'.written = sh.written := by
  have hsound := htask.stage
  have hown : sh.holder ≠ some i := by
    rw [hholder]
    exact fun heq => hne (Option.some.inj heq)
  cases h with
  | ask | operate | call | copy => exact ⟨hholder, rfl, rfl⟩
  | lock hstage hfree =>
    rw [hfree] at hholder
    cases hholder
  | move hstage | place hstage | finish hstage =>
    rw [hstage] at hsound
    cases hsound with
    | replacing _ _ hholder' => exact absurd hholder' hown

/-- What a turn keeps of every other task. -/
theorem sound_other (h : Turn path i sh task sh' task') (htask : task.Sound path old i sh)
    {other : Task} (hne : j ≠ i) (hother : other.Sound path old j sh) :
    other.Sound path old j sh' := by
  have hfollows := h.follows
  have hnow := hfollows.now_le
  obtain ⟨plan, log, stage⟩ := other
  refine hother.keep hfollows hother.course ?_ ?_
  · cases stage with
    | ready => exact hnow
    | _ => exact Nat.le_refl _
  · cases hother.stage with
    | ready plan => exact .ready plan
    | waiting hcalled => exact .waiting (hcalled.trans hnow)
    | locked hcalled hholder =>
      exact .locked (hcalled.trans hnow) (h.untouched htask hne hholder).1
    | replacing hcalled htaken hholder hunder =>
      obtain ⟨hholder', hfiles, hwritten⟩ := h.untouched htask hne hholder
      exact .replacing hcalled (htaken.trans hnow) hholder'
        (hunder.follows hfollows hfiles hwritten)

end Workplace.Turn

/-! ## Runs -/

namespace Workplace

variable {w u : Workplace}

structure Sound (path : String) (old : FileTree) (w : Workplace) : Prop where
  shared : w.shared.Sound path old
  tasks : ∀ i (task : Task), w.tasks[i]? = some task → task.Sound path old i w.shared

theorem Step.follows (h : Step path w u) : w.shared.Follows u.shared := by
  cases h with
  | come plan => exact .refl _
  | turn htask hturn => exact hturn.follows

theorem Step.sound (h : Step path w u) (hw : w.Sound path old) : u.Sound path old := by
  cases h with
  | come plan =>
    refine ⟨hw.shared, fun i task htask => ?_⟩
    rw [List.getElem?_append] at htask
    split at htask
    · exact hw.tasks i task htask
    · rw [List.mem_singleton.mp (List.mem_of_getElem? htask)]
      exact .begin plan
  | @turn i task task' sh htask hturn =>
    have htaskSound := hw.tasks i task htask
    obtain ⟨hshared, hown⟩ := hturn.sound hw.shared htaskSound
    refine ⟨hshared, fun j other hother => ?_⟩
    by_cases hne : j = i
    · subst hne
      rw [List.getElem?_set_self', htask] at hother
      cases hother
      exact hown
    · rw [List.getElem?_set_ne (Ne.symm hne)] at hother
      exact hturn.sound_other htaskSound hne (hw.tasks j other hother)

theorem Reaches.follows (h : Reaches path w u) : w.shared.Follows u.shared := by
  induction h with
  | refl => exact .refl _
  | tail _ hstep ih => exact ih.trans hstep.follows

theorem Reaches.sound (h : Reaches path w u) (hw : w.Sound path old) : u.Sound path old := by
  induction h with
  | refl => exact hw
  | tail _ hstep ih => exact hstep.sound ih

end Workplace
end Turnstile
