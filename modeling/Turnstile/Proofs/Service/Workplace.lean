import Turnstile.Proofs.Service.Course
import Turnstile.Proofs.Store.Saving

/-! Requests side by side on one store with a file. Each request is a task, and the turns of all
tasks fall in any order. A save takes a lock, copies the records, replaces the file move by move and
gives the lock back; the store changes freely while it is under way. What is shared remembers every
store there was, and of which of them a copy was put in place. -/

namespace Turnstile

/-- How far a task is with its next turn. A save remembers the moments when it was asked for and
when it took its copy. -/
inductive Stage where
  | ready (plan : Plan)
  | waiting (called : Nat) (next : Except StoreError Unit → Plan)
  | locked (called : Nat) (next : Except StoreError Unit → Plan)
  | replacing (called taken : Nat) (r : Replacement) (phase : Replacement.Phase)
      (next : Except StoreError Unit → Plan)

structure Task where
  /-- What the request asks for, from its start. -/
  plan : Plan
  log : List Entry
  stage : Stage

/-- What all tasks work on. Nothing they do depends on the moments and the stores of the past. -/
structure Shared where
  store : Store
  files : FileTree
  /-- The stores before, one for each operation. -/
  earlier : List Store
  /-- The moments of the copies that were put in place. -/
  written : List Nat
  /-- The task that holds the lock for saves. -/
  holder : Option Nat

structure Workplace where
  shared : Shared
  tasks : List Task

/-- The operation neither writes the file nor turns to another one. -/
def Operation.LeavesFile : Operation → Prop
  | .save .. | .setPath _ => False
  | _ => True

theorem Operation.LeavesFile.path_apply {op : Operation} (h : op.LeavesFile) (s : Store) :
    (s.apply op).path = s.path := by
  refine Store.path_apply ?_
  rintro other rfl
  exact h

theorem Operation.Notes.leavesFile {op : Operation} (h : op.Notes) : op.LeavesFile := by
  cases op <;> trivial

theorem Operation.leavesFile_of_changes {draw : Draw} {action : Action} {op : Operation}
    (h : action.Changes draw op) : op.LeavesFile := by
  cases action <;> cases op <;> trivial

/-- The second store is what an operation makes of the first one. -/
def Store.Becomes (s t : Store) : Prop := ∃ op : Operation, op.LeavesFile ∧ t = s.apply op

/-- The answer to a save whose replacement has ended. -/
def Replacement.answer? (r : Replacement) : Replacement.Phase → Option (Except StoreError Unit)
  | .done => some (.ok ())
  | .failed (.preparing e) =>
    some (.error (.io ("failed to prepare " ++ r.directory ++ ": " ++ e.message)))
  | .failed (.writing e) =>
    some (.error (.io ("failed to write " ++ r.target ++ ": " ++ e.message)))
  | _ => none

namespace Shared

/-- The number of operations so far. -/
def now (sh : Shared) : Nat := sh.earlier.length

/-- The store at every moment. -/
def history (sh : Shared) : List Store := sh.earlier ++ [sh.store]

def operate (sh : Shared) (op : Operation) : Shared :=
  { sh with store := sh.store.apply op, earlier := sh.earlier ++ [sh.store] }

end Shared

/-- One turn of a task, which is the one at that place. -/
inductive Workplace.Turn (path : String) (i : Nat) (sh : Shared) (task : Task) :
    Shared → Task → Prop
  | ask {next : Store → Plan} (hstage : task.stage = .ready (.ask next)) :
      Turn path i sh task sh { task with stage := .ready (next sh.store) }
  | operate {op : Operation} {next : Except StoreError Reply → Plan}
      (hstage : task.stage = .ready (.operate op next)) (hop : op.LeavesFile) :
      Turn path i sh task (sh.operate op)
        { task with
          log := task.log ++ [.operated op (sh.store.answer op) sh.now]
          stage := .ready (next (sh.store.answer op)) }
  | call {next : Except StoreError Unit → Plan} (hstage : task.stage = .ready (.save next)) :
      Turn path i sh task sh { task with stage := .waiting sh.now next }
  | lock {called : Nat} {next : Except StoreError Unit → Plan}
      (hstage : task.stage = .waiting called next) (hfree : sh.holder = none) :
      Turn path i sh task { sh with holder := some i } { task with stage := .locked called next }
  -- the moment of the copy counts, not that of the call: others may have come between
  | copy {called : Nat} {next : Except StoreError Unit → Plan}
      (hstage : task.stage = .locked called next) (now : Moment) {tag : String}
      (htag : '/' ∉ tag.toList) (hunused : (sh.store.replacement path now tag).Unused sh.files) :
      Turn path i sh task sh
        { task with
          stage := .replacing called sh.now (sh.store.replacement path now tag) .preparing next }
  | move {called taken : Nat} {r : Replacement} {phase phase' : Replacement.Phase}
      {next : Except StoreError Unit → Plan} {after : FileTree}
      (hstage : task.stage = .replacing called taken r phase next)
      (hmove : r.Moves (phase, sh.files) (phase', after)) (hphase : phase' ≠ .done) :
      Turn path i sh task { sh with files := after }
        { task with stage := .replacing called taken r phase' next }
  | place {called taken : Nat} {r : Replacement} {phase : Replacement.Phase}
      {next : Except StoreError Unit → Plan} {after : FileTree}
      (hstage : task.stage = .replacing called taken r phase next)
      (hmove : r.Moves (phase, sh.files) (.done, after)) :
      Turn path i sh task { sh with files := after, written := sh.written ++ [taken] }
        { task with stage := .replacing called taken r .done next }
  | finish {called taken : Nat} {r : Replacement} {phase : Replacement.Phase}
      {next : Except StoreError Unit → Plan} {answer : Except StoreError Unit}
      (hstage : task.stage = .replacing called taken r phase next)
      (hanswer : r.answer? phase = some answer) :
      Turn path i sh task { sh with holder := none }
        { task with log := task.log ++ [.saved called answer], stage := .ready (next answer) }

/-- A request comes, or a task takes a turn. -/
inductive Workplace.Step (path : String) (w : Workplace) : Workplace → Prop
  | come (plan : Plan) : Step path w { w with tasks := w.tasks ++ [⟨plan, [], .ready plan⟩] }
  | turn {i : Nat} {task task' : Task} {sh : Shared} (htask : w.tasks[i]? = some task)
      (hturn : Turn path i w.shared task sh task') :
      Step path w ⟨sh, w.tasks.set i task'⟩

def Workplace.Reaches (path : String) : Workplace → Workplace → Prop :=
  Relation.ReflTransGen (Workplace.Step path)

variable {path : String} {i j : Nat} {sh sh' : Shared} {task task' : Task}

/-! ## What is remembered -/

namespace Shared

/-- The second one is later. -/
structure Follows (sh sh' : Shared) : Prop where
  history : sh.history <+: sh'.history
  written : sh.written <+: sh'.written

theorem Follows.refl (sh : Shared) : Follows sh sh := ⟨List.prefix_rfl, List.prefix_rfl⟩

theorem Follows.trans {sh'' : Shared} (h : Follows sh sh') (h' : Follows sh' sh'') :
    Follows sh sh'' :=
  ⟨h.history.trans h'.history, h.written.trans h'.written⟩

theorem history_operate (sh : Shared) (op : Operation) :
    (sh.operate op).history = sh.history ++ [sh.store.apply op] := by
  simp only [history, operate]

theorem now_operate (sh : Shared) (op : Operation) : (sh.operate op).now = sh.now + 1 := by
  rw [now, operate, List.length_append, List.length_singleton, now]

theorem follows_operate (sh : Shared) (op : Operation) : sh.Follows (sh.operate op) := by
  refine ⟨?_, List.prefix_rfl⟩
  rw [history_operate]
  exact List.prefix_append _ _

theorem length_history (sh : Shared) : sh.history.length = sh.now + 1 := by
  rw [history, List.length_append, List.length_singleton, now]

theorem history_now (sh : Shared) : sh.history[sh.now]? = some sh.store := by
  simp [history, now]

theorem Follows.now_le (h : Follows sh sh') : sh.now ≤ sh'.now := by
  have hlength := h.history.length_le
  rw [length_history, length_history] at hlength
  omega

theorem Follows.history_eq (h : Follows sh sh') {m : Nat} {s : Store}
    (hm : sh.history[m]? = some s) : sh'.history[m]? = some s := by
  obtain ⟨rest, hrest⟩ := h.history
  have hlt := (List.getElem?_eq_some_iff.mp hm).1
  rw [← hrest, List.getElem?_append_left hlt, hm]

end Shared

theorem Workplace.Turn.follows (h : Turn path i sh task sh' task') : sh.Follows sh' := by
  cases h with
  | operate _ _ => exact Shared.follows_operate sh _
  | place _ _ => exact ⟨List.prefix_rfl, List.prefix_append _ _⟩
  | _ => exact ⟨List.prefix_rfl, List.prefix_rfl⟩

end Turnstile
