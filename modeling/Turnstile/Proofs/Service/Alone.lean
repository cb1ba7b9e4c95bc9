import Turnstile.Proofs.Service.Workplace

/-! A request that nobody comes between. Side by side with idle tasks it does what its plan does
without a break: the same answer, the same store and the same files. In particular a save that is
taken move by move is the save of the store. -/

namespace Turnstile

open Http (Response)

variable {path : String} {i : Nat} {sh : Shared} {plan : Plan} {log : List Entry}
  {next : Except StoreError Unit → Plan} {draw : Draw}

/-! ## Turns of one task -/

namespace Workplace

/-- Turns of one task with none of another in between. -/
def Turns (path : String) (i : Nat) : Shared × Task → Shared × Task → Prop :=
  Relation.ReflTransGen fun a b => Turn path i a.1 a.2 b.1 b.2

theorem turns_of_turn {sh' : Shared} {task task' : Task} (h : Turn path i sh task sh' task') :
    Turns path i (sh, task) (sh', task') := .single h

theorem reaches_of_turns {a b : Shared × Task} (h : Turns path i a b) {tasks : List Task}
    (htask : tasks[i]? = some a.2) : Reaches path ⟨a.1, tasks⟩ ⟨b.1, tasks.set i b.2⟩ := by
  obtain ⟨hlt, hget⟩ := List.getElem?_eq_some_iff.mp htask
  induction h with
  | refl =>
    rw [← hget, List.set_getElem_self]
    exact .refl
  | @tail b c _ hturn ih =>
    have hstep : Step path ⟨b.1, tasks.set i b.2⟩ ⟨c.1, (tasks.set i b.2).set i c.2⟩ :=
      .turn (List.getElem?_set_self hlt) hturn
    rw [List.set_set] at hstep
    exact ih.tail hstep

/-! ## A save -/

theorem turns_of_moves {r : Replacement} {called taken : Nat} {a b : Replacement.Phase × FileTree}
    (h : Relation.ReflTransGen r.Moves a b) (sh : Shared) :
    ∃ written, Turns path i
      ({ sh with files := a.2 }, ⟨plan, log, .replacing called taken r a.1 next⟩)
      ({ sh with files := b.2, written }, ⟨plan, log, .replacing called taken r b.1 next⟩) := by
  induction h with
  | refl => exact ⟨sh.written, .refl⟩
  | @tail b c _ hmove ih =>
    obtain ⟨written, hturns⟩ := ih
    obtain ⟨phase, after⟩ := c
    by_cases hphase : phase = .done
    · subst hphase
      exact ⟨written ++ [taken], hturns.tail (.place rfl hmove)⟩
    · exact ⟨written, hturns.tail (.move rfl hmove hphase)⟩

/-- With the lock free, a save takes any of the courses that its replacement can take. -/
theorem turns_of_reaches {r : Replacement} {now : Moment} {tag : String}
    (hr : sh.store.replacement path now tag = r) (htag : '/' ∉ tag.toList)
    (hunused : r.Unused sh.files) (hfree : sh.holder = none) {phase : Replacement.Phase}
    {after : FileTree} (hreaches : r.Reaches sh.files (phase, after))
    {answer : Except StoreError Unit} (hanswer : r.answer? phase = some answer) :
    ∃ written, Turns path i (sh, ⟨plan, log, .ready (.save next)⟩)
      ({ sh with files := after, written },
        ⟨plan, log ++ [.saved sh.now answer], .ready (next answer)⟩) := by
  obtain ⟨store, files, earlier, written, holder⟩ := sh
  subst hfree
  subst hr
  have hcall : Turns path i
      (⟨store, files, earlier, written, none⟩, ⟨plan, log, .ready (.save next)⟩)
      (⟨store, files, earlier, written, none⟩, ⟨plan, log, .waiting earlier.length next⟩) :=
    turns_of_turn (.call rfl)
  have hlock : Turns path i
      (⟨store, files, earlier, written, none⟩, ⟨plan, log, .waiting earlier.length next⟩)
      (⟨store, files, earlier, written, some i⟩, ⟨plan, log, .locked earlier.length next⟩) :=
    turns_of_turn (.lock rfl rfl)
  have hcopy : Turns path i
      (⟨store, files, earlier, written, some i⟩, ⟨plan, log, .locked earlier.length next⟩)
      (⟨store, files, earlier, written, some i⟩, ⟨plan, log, .replacing earlier.length
        earlier.length (store.replacement path now tag) .preparing next⟩) :=
    turns_of_turn (.copy rfl now htag hunused)
  have hmoved : ∃ written', Turns path i
      (⟨store, files, earlier, written, some i⟩, ⟨plan, log, .replacing earlier.length
        earlier.length (store.replacement path now tag) .preparing next⟩)
      (⟨store, after, earlier, written', some i⟩, ⟨plan, log, .replacing earlier.length
        earlier.length (store.replacement path now tag) phase next⟩) :=
    turns_of_moves hreaches ⟨store, files, earlier, written, some i⟩
  obtain ⟨written', hmoved⟩ := hmoved
  exact ⟨written', hcall.trans (hlock.trans (hcopy.trans
    (hmoved.trans (turns_of_turn (.finish rfl hanswer)))))⟩

end Workplace

/-- A replacement that has ended says what the save answers. -/
theorem Store.answer?_replacement {s : Store} (hpath : s.path = some path) (files : FileTree)
    (now : Moment) (tag : String) :
    (s.replacement path now tag).answer? (.ofAnswer ((s.replacement path now tag).run files).1) =
      some (s.save files now tag).1 := by
  simp only [save, hpath, replacement]
  split
  · rename_i after hrun
    rw [hrun]
    rfl
  · rename_i e after hrun
    rw [hrun]
    rfl
  · rename_i e after hrun
    rw [hrun]
    rfl

namespace Workplace

/-- In particular its turns can come to what the save of the store does. -/
theorem turns_save (hpath : sh.store.path = some path) (hfree : sh.holder = none) {tag : String}
    (htag : '/' ∉ tag.toList) (now : Moment)
    (hunused : (sh.store.replacement path now tag).Unused sh.files) :
    ∃ written, Turns path i (sh, ⟨plan, log, .ready (.save next)⟩)
      ({ sh with files := (sh.store.save sh.files now tag).2, written },
        ⟨plan, log ++ [.saved sh.now (sh.store.save sh.files now tag).1],
          .ready (next (sh.store.save sh.files now tag).1)⟩) := by
  obtain ⟨htree, -⟩ := Store.save_of_path hpath sh.files now tag
  rw [htree]
  exact turns_of_reaches rfl htag hunused hfree Replacement.reaches_run
    (Store.answer?_replacement hpath sh.files now tag)

end Workplace

/-! ## All turns of a plan -/

/-- No operation that the plan comes to without a break writes the file or turns to another one. -/
def Plan.LeavesFile (draw : Draw) : Plan → World → Prop
  | .answer _, _ => True
  | .ask next, w => (next w.store).LeavesFile draw w
  | .operate op next, w =>
    op.LeavesFile ∧ (next (w.store.answer op)).LeavesFile draw { w with store := w.store.apply op }
  | .save next, w => (next (w.persist draw).1).LeavesFile draw (w.persist draw).2

namespace Plan

variable {plan : Plan} {own : Operation → Prop}

theorem Quiet.leavesFile {status : Nat → Prop} (h : plan.Quiet status) (w : World) :
    plan.LeavesFile draw w := by
  induction h generalizing w with
  | answer => trivial
  | ask _ ih => exact ih w.store w
  | note hop _ ih => exact ⟨hop.leavesFile, ih _ _⟩

theorem Commits.leavesFile (hown : ∀ op, own op → op.LeavesFile) (h : plan.Commits own)
    (w : World) : plan.LeavesFile draw w := by
  induction h generalizing w with
  | decline => trivial
  | ask _ ih => exact ih w.store w
  | note hop _ ih => exact ⟨hop.leavesFile, ih _ _⟩
  | @change op next hop hrefused hdone =>
    refine ⟨hown op hop, ?_⟩
    cases hanswer : w.store.answer op with
    | error e => exact (hrefused e).leavesFile _
    | ok reply =>
      obtain ⟨rest, hrest, hfailed, hsaved⟩ := hdone w.store reply hanswer
      rw [hrest, LeavesFile]
      rcases World.persist_answer { w with store := w.store.apply op } draw with hok | ⟨detail, hio⟩
      · rw [hok]
        exact hsaved.leavesFile _
      · rw [hio]
        exact (hfailed detail).leavesFile _

end Plan

/-- Files that the saves of one request can be made in. -/
structure FileTree.Ready (path : String) (draw : Draw) (files : FileTree) : Prop where
  wellFormed : files.WellFormed
  tag : '/' ∉ draw.tag.toList
  unused : ∀ s : Store, (s.replacement path draw.now draw.tag).Unused files

theorem FileTree.Ready.save {files : FileTree} (h : files.Ready path draw) {s : Store}
    (hpath : s.path = some path) : (s.save files draw.now draw.tag).2.Ready path draw := by
  obtain ⟨htree, -⟩ := Store.save_of_path hpath files draw.now draw.tag
  rw [htree]
  obtain ⟨haround, hholds⟩ := Replacement.holds_of_reaches h.tag (h.unused s) h.wellFormed
    Replacement.reaches_run
  refine ⟨haround.wellFormed, h.tag, fun t => ?_⟩
  have hunused : (s.replacement path draw.now draw.tag).Unused
      ((s.replacement path draw.now draw.tag).run files).2 := by
    cases hresult : ((s.replacement path draw.now draw.tag).run files).1 with
    | ok =>
      rw [hresult] at hholds
      exact Replacement.Replaced.unused hholds (h.unused s)
    | error f =>
      rw [hresult] at hholds
      intro place hfile
      rw [hholds place] at hfile
      exact h.unused s place hfile
  exact hunused.congr rfl rfl

namespace Workplace

/-- Without a break, the turns of a plan come to its run. -/
theorem turns_run {current : Plan} (plan : Plan) (sh : Shared) (log : List Entry)
    (hcurrent : current.LeavesFile draw ⟨sh.store, sh.files⟩) (hpath : sh.store.path = some path)
    (hready : sh.files.Ready path draw) (hfree : sh.holder = none) :
    ∃ sh' log', Turns path i (sh, ⟨plan, log, .ready current⟩)
      (sh', ⟨plan, log', .ready (.answer (current.run draw ⟨sh.store, sh.files⟩).1)⟩) ∧
        ⟨sh'.store, sh'.files⟩ = (current.run draw ⟨sh.store, sh.files⟩).2 ∧
        sh'.holder = none := by
  induction current generalizing sh log with
  | answer response => exact ⟨sh, log, .refl, rfl, hfree⟩
  | ask next ih =>
    obtain ⟨sh', log', hturns, hworld⟩ := ih sh.store sh log hcurrent hpath hready hfree
    exact ⟨sh', log', (turns_of_turn (.ask rfl)).trans hturns, hworld⟩
  | operate op next ih =>
    obtain ⟨sh', log', hturns, hworld⟩ := ih (sh.store.answer op)
      (sh.operate op) (log ++ [.operated op (sh.store.answer op) sh.now]) hcurrent.2
      ((hcurrent.1.path_apply sh.store).trans hpath) hready hfree
    exact ⟨sh', log', (turns_of_turn (.operate rfl hcurrent.1)).trans hturns, hworld⟩
  | save next ih =>
    have hpersist : World.persist ⟨sh.store, sh.files⟩ draw =
        ((sh.store.save sh.files draw.now draw.tag).1,
          ⟨sh.store, (sh.store.save sh.files draw.now draw.tag).2⟩) := by
      simp only [World.persist, hpath]
    have hsaved : ∃ written, Turns path i (sh, ⟨plan, log, .ready (.save next)⟩)
        ({ sh with files := (sh.store.save sh.files draw.now draw.tag).2, written },
          ⟨plan, log ++ [.saved sh.now (sh.store.save sh.files draw.now draw.tag).1],
            .ready (next (sh.store.save sh.files draw.now draw.tag).1)⟩) :=
      turns_save hpath hfree hready.tag draw.now (hready.unused sh.store)
    obtain ⟨written, hsaved⟩ := hsaved
    rw [Plan.LeavesFile, hpersist] at hcurrent
    rw [Plan.run, hpersist]
    obtain ⟨sh', log', hturns, hworld⟩ := ih (sh.store.save sh.files draw.now draw.tag).1
      { sh with files := (sh.store.save sh.files draw.now draw.tag).2, written } _ hcurrent hpath
      (hready.save hpath) hfree
    exact ⟨sh', log', hsaved.trans hturns, hworld⟩

/-- A request that comes and is not interrupted is answered as its plan says, and leaves the store
and the files that its plan leaves. -/
theorem reaches_run (w : Workplace) (hplan : plan.LeavesFile draw ⟨w.shared.store, w.shared.files⟩)
    (hpath : w.shared.store.path = some path) (hready : w.shared.files.Ready path draw)
    (hfree : w.shared.holder = none) :
    ∃ sh log, Reaches path w ⟨sh, w.tasks ++
      [⟨plan, log, .ready (.answer (plan.run draw ⟨w.shared.store, w.shared.files⟩).1)⟩]⟩ ∧
        ⟨sh.store, sh.files⟩ = (plan.run draw ⟨w.shared.store, w.shared.files⟩).2 := by
  obtain ⟨sh, log, hturns, hworld, -⟩ :=
    turns_run (i := w.tasks.length) plan w.shared [] hplan hpath hready hfree
  have hcome : Reaches path w ⟨w.shared, w.tasks ++ [⟨plan, [], .ready plan⟩]⟩ :=
    .single (.come plan)
  refine ⟨sh, log, ?_, hworld⟩
  have hreaches := hcome.trans (reaches_of_turns hturns List.getElem?_concat_length)
  rwa [List.set_append_right _ _ (Nat.le_refl _), Nat.sub_self] at hreaches

end Workplace
end Turnstile
