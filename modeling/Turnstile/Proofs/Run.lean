import Mathlib.Data.List.Induction
import Mathlib.Data.List.Infix

/-! Runs. A run is a list of events, each of which takes a state to the next one; the states of a
run are the states after its prefixes. What holds at the start and is kept by each event of a run
holds after every prefix (`prefix_induction`). What happened in a run is counted by `tally` and
listed by `collect`. -/

namespace Turnstile.Run

variable {σ ε α : Type} {step : σ → ε → σ} {s : σ} {run past rest : List ε}

def after (step : σ → ε → σ) (s : σ) (run : List ε) : σ := run.foldl step s

/-- How many events of a run pass the test, which sees the state that the event meets. -/
def tally (step : σ → ε → σ) (test : σ → ε → Bool) (s : σ) : List ε → Nat
  | [] => 0
  | e :: rest => (test s e).toNat + tally step test (step s e) rest

/-- What the events of a run yield, in their order. -/
def collect (step : σ → ε → σ) (pick : σ → ε → Option α) (s : σ) : List ε → List α
  | [] => []
  | e :: rest => (pick s e).toList ++ collect step pick (step s e) rest

theorem after_append : after step s (past ++ rest) = after step (after step s past) rest :=
  List.foldl_append

theorem after_concat (past : List ε) (e : ε) :
    after step s (past ++ [e]) = step (after step s past) e := by
  rw [after_append]; rfl

theorem tally_append (test : σ → ε → Bool) (s : σ) (past rest : List ε) :
    tally step test s (past ++ rest) =
      tally step test s past + tally step test (after step s past) rest := by
  induction past generalizing s with
  | nil => simp [tally, after]
  | cons e past ih =>
    rw [List.cons_append, tally, tally, ih]
    simp only [after, List.foldl_cons, Nat.add_assoc]

theorem tally_concat (test : σ → ε → Bool) (s : σ) (past : List ε) (e : ε) :
    tally step test s (past ++ [e]) =
      tally step test s past + (test (after step s past) e).toNat := by
  rw [tally_append]; rfl

theorem tally_after_concat (test : σ → ε → Bool) (s : σ) (past rest : List ε) (e : ε) :
    tally step test (after step s past) (rest ++ [e]) =
      tally step test (after step s past) rest +
        (test (after step s (past ++ rest)) e).toNat := by
  rw [after_append]
  exact tally_concat test _ rest e

/-- Two tests of which at most one passes count what a third one counts alone. -/
theorem tally_eq_add {test left right : σ → ε → Bool}
    (h : ∀ s e, (test s e).toNat = (left s e).toNat + (right s e).toNat) (s : σ) (run : List ε) :
    tally step test s run = tally step left s run + tally step right s run := by
  induction run generalizing s with
  | nil => rfl
  | cons e rest ih =>
    simp only [tally, ih, h]
    omega

theorem collect_concat (pick : σ → ε → Option α) (s : σ) (past : List ε) (e : ε) :
    collect step pick s (past ++ [e]) =
      collect step pick s past ++ (pick (after step s past) e).toList := by
  induction past generalizing s with
  | nil => simp [collect, after]
  | cons first past ih =>
    rw [List.cons_append, collect, collect, ih, List.append_assoc]
    rfl

/-- A property of the prefixes of a run, from its start and its single events. -/
theorem prefix_induction {holds : List ε → Prop} (start : holds [])
    (next : ∀ past e, past ++ [e] <+: run → holds past → holds (past ++ [e])) :
    ∀ past, past <+: run → holds past := by
  intro past
  induction past using List.reverseRecOn with
  | nil => exact fun _ => start
  | append_singleton past e ih =>
    intro h
    exact next past e h (ih ((List.prefix_append past [e]).trans h))

/-! ## What lasts

Something is made by an event of a run and lasts for as long as no later event unmakes it. -/

/-- Some event of the run made it, and no later one unmade it. -/
def Lasting (step : σ → ε → σ) (made unmade : σ → ε → Prop) (s : σ) (run : List ε) : Prop :=
  ∃ past e rest, run = past ++ e :: rest ∧ made (after step s past) e ∧
    ∀ more next, more ++ [next] <+: rest → ¬ unmade (after step s (past ++ e :: more)) next

/-- What is made holds after the event, and holds on after each event that does not unmake it. -/
theorem Lasting.holds {made unmade : σ → ε → Prop} {holds : σ → Prop}
    (h : Lasting step made unmade s run) (start : ∀ s e, made s e → holds (step s e))
    (next : ∀ s e, holds s → ¬ unmade s e → holds (step s e)) : holds (after step s run) := by
  obtain ⟨past, e, rest, rfl, hmade, hlasts⟩ := h
  have hmore : ∀ more, more <+: rest → holds (after step s (past ++ e :: more)) := by
    refine prefix_induction ?_ ?_
    · rw [after_concat]
      exact start _ e hmade
    · intro more last hp ih
      rw [← List.cons_append, ← List.append_assoc, after_concat]
      exact next _ last ih (hlasts more last hp)
  exact hmore rest List.prefix_rfl

/-! ## Balances

A balance is raised and lowered by the events of a run, and some of them set it back to zero. A
stretch without such an event keeps at least what it was given, and at its end every balance is what
some stretch has raised it by. -/

section Balance

variable (step s) (balance : σ → Int) (up down : σ → ε → Bool) (resets : ε → Prop)
  {early late : List ε}

theorem balance_le
    (h : ∀ past e, past ++ [e] <+: run → ¬ resets e →
      balance (after step s past) + (up (after step s past) e).toNat ≤
        balance (step (after step s past) e) + (down (after step s past) e).toNat)
    (hp : early ++ late <+: run) (hlate : ∀ e ∈ late, ¬ resets e) :
    balance (after step s early) + tally step up (after step s early) late ≤
      balance (after step s (early ++ late)) + tally step down (after step s early) late := by
  induction late using List.reverseRecOn with
  | nil => simp [tally]
  | append_singleton late e ih =>
    rw [← List.append_assoc] at hp ⊢
    have hbefore := ih ((List.prefix_append _ [e]).trans hp)
      (fun e he => hlate e (List.mem_append_left _ he))
    have hlast := h _ e hp (hlate e (List.mem_append_right late (List.mem_singleton_self e)))
    rw [tally_after_concat, tally_after_concat, after_concat]
    omega

theorem exists_stretch (hstart : balance s = 0)
    (h : ∀ past e, past ++ [e] <+: run → balance (step (after step s past) e) = 0 ∨
      ¬ resets e ∧
        balance (step (after step s past) e) + (down (after step s past) e).toNat =
          balance (after step s past) + (up (after step s past) e).toNat) :
    ∀ past, past <+: run → ∃ early late, early ++ late = past ∧ (∀ e ∈ late, ¬ resets e) ∧
      balance (after step s past) + tally step down (after step s early) late =
        tally step up (after step s early) late := by
  refine prefix_induction ⟨[], [], rfl, by simp, ?_⟩ ?_
  · rw [show after step s [] = s from rfl, hstart]
    rfl
  · rintro past e hp ⟨early, late, rfl, hlate, hbefore⟩
    rw [after_concat]
    -- A new stretch starts wherever the balance is zero.
    rcases h _ e hp with hzero | ⟨hkeeps, hmoved⟩
    · refine ⟨early ++ late ++ [e], [], List.append_nil _, by simp, ?_⟩
      rw [hzero]
      rfl
    · refine ⟨early, late ++ [e], (List.append_assoc _ _ _).symm, ?_, ?_⟩
      · exact List.forall_mem_append.mpr ⟨hlate, List.forall_mem_singleton.mpr hkeeps⟩
      · rw [tally_after_concat, tally_after_concat]
        omega

end Balance

/-! ## Deciding what holds along a run -/

theorem concat_prefix_iff {e : ε} :
    past ++ [e] <+: run ↔ past <+: run ∧ run[past.length]? = some e := by
  constructor
  · rintro ⟨rest, rfl⟩
    refine ⟨⟨e :: rest, by simp⟩, ?_⟩
    rw [List.append_assoc, List.getElem?_append_right (Nat.le_refl _), Nat.sub_self]
    rfl
  · rintro ⟨⟨rest, rfl⟩, he⟩
    rw [List.getElem?_append_right (Nat.le_refl _), Nat.sub_self] at he
    cases rest with
    | nil => cases he
    | cons first rest =>
      cases he
      exact ⟨rest, by simp⟩

theorem forall_prefix_iff {holds : List ε → Prop} :
    (∀ past ∈ run.inits, holds past) ↔ ∀ past, past <+: run → holds past := by
  simp only [List.mem_inits]

theorem forall_event_iff {holds : List ε → ε → Prop} :
    (∀ past ∈ run.inits, ∀ e ∈ run[past.length]?, holds past e) ↔
      ∀ past e, past ++ [e] <+: run → holds past e := by
  simp only [List.mem_inits, concat_prefix_iff, Option.mem_def, and_imp]
  exact forall_congr' fun past => ⟨fun h e hp he => h hp e he, fun h hp e he => h e hp he⟩

theorem forall_split_iff {holds : List ε → List ε → Prop} :
    (∀ early ∈ run.inits, holds early (run.drop early.length)) ↔
      ∀ early late, early ++ late = run → holds early late := by
  simp only [List.mem_inits]
  constructor
  · rintro h early late rfl
    have hsplit := h early (List.prefix_append early late)
    rwa [List.drop_left] at hsplit
  · rintro h early ⟨late, rfl⟩
    rw [List.drop_left]
    exact h early late rfl

theorem exists_split_iff {holds : List ε → List ε → Prop} :
    (∃ early ∈ run.inits, holds early (run.drop early.length)) ↔
      ∃ early late, early ++ late = run ∧ holds early late := by
  simp only [List.mem_inits]
  constructor
  · rintro ⟨early, ⟨late, rfl⟩, hsplit⟩
    rw [List.drop_left] at hsplit
    exact ⟨early, late, rfl, hsplit⟩
  · rintro ⟨early, late, rfl, hsplit⟩
    refine ⟨early, List.prefix_append early late, ?_⟩
    rwa [List.drop_left]

end Turnstile.Run
