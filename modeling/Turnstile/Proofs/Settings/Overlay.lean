import Turnstile.Settings.Source

/-! One source of settings over another. What stands under a name in a group is the stack of all
that the sources say of it, whatever they say of other names, as long as they say it in tables. -/

namespace Turnstile

namespace Setting

variable {target before base : Setting} {group name other : String} {v : Setting}
  {entries source : List (String × Setting)} {steps : List Step}

/-! ## Comparing -/

mutual

/-- The same value, part by part. -/
def same : Setting → Setting → Bool
  | null, null => true
  | bool b, bool b' => b == b'
  | int n, int n' => n == n'
  | float x, float x' => x == x'
  | text s, text s' => s == s'
  | list items, list items' => sameItems items items'
  | table entries, table entries' => sameEntries entries entries'
  | _, _ => false

def sameItems : List Setting → List Setting → Bool
  | [], [] => true
  | v :: rest, v' :: rest' => same v v' && sameItems rest rest'
  | _, _ => false

def sameEntries : List (String × Setting) → List (String × Setting) → Bool
  | [], [] => true
  | (name, v) :: rest, (name', v') :: rest' =>
    name == name' && same v v' && sameEntries rest rest'
  | _, _ => false

end

mutual

theorem same_iff : (v v' : Setting) → (same v v' = true ↔ v = v')
  | null, v' => by cases v' <;> simp [same]
  | bool b, v' => by cases v' <;> simp [same]
  | int n, v' => by cases v' <;> simp [same]
  | float x, v' => by cases v' <;> simp [same]
  | text s, v' => by cases v' <;> simp [same]
  | list items, v' => by cases v' <;> simp [same, sameItems_iff]
  | table entries, v' => by cases v' <;> simp [same, sameEntries_iff]

theorem sameItems_iff : (items items' : List Setting) →
    (sameItems items items' = true ↔ items = items')
  | [], items' => by cases items' <;> simp [sameItems]
  | v :: rest, items' => by cases items' <;> simp [sameItems, same_iff, sameItems_iff]

theorem sameEntries_iff : (entries entries' : List (String × Setting)) →
    (sameEntries entries entries' = true ↔ entries = entries')
  | [], entries' => by cases entries' <;> simp [sameEntries]
  | (name, v) :: rest, entries' => by
    cases entries' <;> simp [sameEntries, same_iff v, sameEntries_iff rest, Prod.ext_iff]

end

instance : DecidableEq Setting := fun v v' => decidable_of_iff _ (same_iff v v')

/-! ## Tables -/

def isTable : Setting → Bool
  | table _ => true
  | _ => false

theorem isTable_eq_true_iff : v.isTable = true ↔ ∃ entries, v = table entries := by
  cases v <;> simp [isTable]

theorem entries_of_not_table (h : v.isTable = false) : v.entries = [] := by
  cases v with
  | table => cases h
  | _ => rfl

theorem lookup_putEntry (name other : String) (v : Setting) (entries : List (String × Setting)) :
    (putEntry name v entries).lookup other =
      if other = name then some v else entries.lookup other := by
  induction entries with
  | nil => simp only [putEntry, List.lookup_cons, List.lookup_nil]; split <;> simp_all
  | cons entry rest ih =>
    obtain ⟨n, w⟩ := entry
    by_cases hn : n = name
    · subst hn
      simp only [putEntry, beq_self_eq_true, if_true, List.lookup_cons]
      split <;> simp_all
    · simp only [putEntry, beq_iff_eq, hn, if_false, List.lookup_cons, ih]
      split
      · rename_i hother
        rw [beq_iff_eq.mp hother, if_neg hn]
      · rfl

@[simp] theorem isTable_put (target : Setting) (name : String) (v : Setting) :
    (target.put name v).isTable = true := rfl

theorem get?_put (target : Setting) (name other : String) (v : Setting) :
    (target.put name v).get? other = if other = name then some v else target.get? other :=
  lookup_putEntry name other v target.entries

/-! ## One value over another -/

/-- The value that stands where one is laid over what was there. -/
def laidOn (before : Option Setting) : Setting → Setting
  | table entries => overlay.overlayAll (before.getD (table [])) entries
  | v => v

theorem laidOn_of_not_table (h : v.isTable = false) (before : Option Setting) :
    laidOn before v = v := by
  cases v with
  | table => cases h
  | _ => rfl

theorem overlay_eq (target : Setting) (name : String) (v : Setting) :
    overlay target name v =
      target.put (Text.toLower name) (laidOn (target.get? (Text.toLower name)) v) := by
  cases v <;> rw [overlay] <;> first | rfl | simp

theorem get?_overlay (target : Setting) (name other : String) (v : Setting) :
    (overlay target name v).get? other =
      if other = Text.toLower name then some (laidOn (target.get? other) v)
      else target.get? other := by
  rw [overlay_eq, get?_put]
  split
  · rename_i hother
    rw [hother]
  · rfl

/-- Values that are laid over one another, and over what was there. -/
def stack (before : Option Setting) (values : List Setting) : Option Setting :=
  values.foldl (fun before v => some (laidOn before v)) before

theorem stack_append (before : Option Setting) (front back : List Setting) :
    stack before (front ++ back) = stack (stack before front) back :=
  List.foldl_append

theorem stack_concat (before : Option Setting) (front : List Setting) (v : Setting) :
    stack before (front ++ [v]) = some (laidOn (stack before front) v) :=
  stack_append before front [v]

/-- The last value is what stands, if it is no table. -/
theorem stack_of_getLast? {before : Option Setting} {values : List Setting} {last : Setting}
    (hlast : values.getLast? = some last) (h : last.isTable = false) :
    stack before values = some last := by
  obtain ⟨front, rfl⟩ := List.getLast?_eq_some_iff.mp hlast
  rw [stack_concat, laidOn_of_not_table h]

/-- What the entries of a table say under a name. -/
def inside (name : String) (entries : List (String × Setting)) : List Setting :=
  (entries.filter fun entry => Text.toLower entry.1 == name).map (·.2)

theorem get?_overlayAll (name : String) (entries : List (String × Setting)) (target : Setting) :
    (overlay.overlayAll target entries).get? name =
      stack (target.get? name) (inside name entries) := by
  induction entries generalizing target with
  | nil => rfl
  | cons entry rest ih =>
    obtain ⟨n, v⟩ := entry
    rw [overlay.overlayAll, ih, get?_overlay]
    by_cases hn : Text.toLower n = name
    · have hinside : inside name ((n, v) :: rest) = v :: inside name rest := by
        simp [inside, hn]
      rw [hinside, hn, if_pos rfl]
      rfl
    · have hinside : inside name ((n, v) :: rest) = inside name rest := by
        simp [inside, hn]
      rw [hinside, if_neg (Ne.symm hn)]

theorem isTable_overlayAll (h : target.isTable = true) (entries : List (String × Setting)) :
    (overlay.overlayAll target entries).isTable = true := by
  induction entries generalizing target with
  | nil => exact h
  | cons entry rest ih =>
    rw [overlay.overlayAll]
    exact ih (by rw [overlay_eq, isTable_put])

/-! ## Sources -/

/-- What stands under a name in a group. -/
def at? (v : Setting) (group name : String) : Option Setting := (v.get? group).bind (·.get? name)

/-- The group is a table if it is there. -/
def Grouped (v : Setting) (group : String) : Prop := ∀ w, v.get? group = some w → w.isTable = true

/-- What a value at the end of a path says of a setting: it is that of the group, as a table, or
that of the setting itself. -/
def told (group name : String) : List Step → Setting → List Setting
  | [.name g], table entries => if Text.toLower g = group then inside name entries else []
  | [.name g, .name n], v =>
    if Text.toLower g = group ∧ Text.toLower n = name then [v] else []
  | _, _ => []

/-- A value at the end of a path takes the place of the group, or goes on below the setting. -/
def strays (group name : String) : List Step → Setting → Bool
  | [.name g], v => Text.toLower g == group && !v.isTable
  | .name g :: .index _ :: _, _ => Text.toLower g == group
  | .name g :: .name n :: _ :: _, _ => Text.toLower g == group && Text.toLower n == name
  | _, _ => false

/-- All that a source says of a setting. -/
def said (group name : String) (source : List (String × Setting)) : List Setting :=
  source.flatMap fun entry => told group name (readPath entry.1) entry.2

theorem readPath_eq (s : String) : ∃ first steps, readPath s = .name first :: steps := by
  simp only [readPath]
  split
  · exact ⟨_, _, rfl⟩
  · exact ⟨_, _, rfl⟩

theorem setAt_name_eq (target : Setting) (first : String) (steps : List Step) (v : Setting) :
    setAt target (.name first :: steps) v =
      target.put (Text.toLower first)
        (if steps = [] then laidOn (target.get? (Text.toLower first)) v
          else setAt ((target.get? (Text.toLower first)).getD null) steps v) := by
  cases steps with
  | nil =>
    rw [if_pos rfl]
    exact overlay_eq target first v
  | cons step rest =>
    rw [if_neg (List.cons_ne_nil step rest)]
    rfl

theorem isTable_setAt (target : Setting) (first : String) (steps : List Step) (v : Setting) :
    (setAt target (.name first :: steps) v).isTable = true := by
  rw [setAt_name_eq, isTable_put]

/-- Inside a group, a value at the end of a path changes the setting that it is for. -/
theorem get?_setAt (hsteps : Text.toLower other = name → steps = []) (target v : Setting) :
    (setAt target (.name other :: steps) v).get? name =
      stack (target.get? name) (if Text.toLower other = name then [v] else []) := by
  rw [setAt_name_eq, get?_put]
  by_cases hother : Text.toLower other = name
  · rw [if_pos hother.symm, if_pos (hsteps hother), if_pos hother, hother]
    rfl
  · rw [if_neg (Ne.symm hother), if_neg hother]
    rfl

/-- A value at the end of a path changes a setting by what it says of it. -/
theorem at?_setAt (hgrouped : base.Grouped group) (first : String) (steps : List Step)
    (hstrays : strays group name (.name first :: steps) v = false) :
    (setAt base (.name first :: steps) v).at? group name =
        stack (base.at? group name) (told group name (.name first :: steps) v) ∧
      (setAt base (.name first :: steps) v).Grouped group := by
  have hnull : ((base.get? group).getD null).get? name = base.at? group name := by
    rw [at?]
    cases base.get? group <;> rfl
  have hempty : ((base.get? group).getD (table [])).get? name = base.at? group name := by
    rw [at?]
    cases base.get? group <;> rfl
  rw [setAt_name_eq, at?, Grouped, get?_put]
  by_cases hfirst : Text.toLower first = group
  · rw [if_pos hfirst.symm, hfirst]
    cases steps with
    | nil =>
      -- the group itself, which has to be a table
      obtain ⟨entries, rfl⟩ : ∃ entries, v = table entries :=
        isTable_eq_true_iff.mp (by simpa [strays, hfirst] using hstrays)
      have htold : told group name [.name first] (table entries) = inside name entries :=
        if_pos hfirst
      have htable : ((base.get? group).getD (table [])).isTable = true := by
        cases hfound : base.get? group with
        | none => rfl
        | some w => exact hgrouped w hfound
      rw [if_pos rfl, laidOn, htold, ← hempty, ← get?_overlayAll]
      exact ⟨rfl, fun w hw => Option.some.inj hw ▸ isTable_overlayAll htable entries⟩
    | cons step rest =>
      cases step with
      | index i => simp [strays, hfirst] at hstrays
      | name n =>
        have hrest : Text.toLower n = name → rest = [] := by
          intro hn
          cases rest with
          | nil => rfl
          | cons => simp [strays, hfirst, hn] at hstrays
        have htold : told group name (.name first :: .name n :: rest) v =
            if Text.toLower n = name then [v] else [] := by
          cases rest with
          | nil => simp [told, hfirst]
          | cons =>
            rw [if_neg fun hn => List.cons_ne_nil _ _ (hrest hn)]
            cases v <;> rfl
        rw [if_neg (List.cons_ne_nil _ _), Option.bind_some, get?_setAt hrest, hnull, htold]
        exact ⟨rfl, fun w hw => Option.some.inj hw ▸ isTable_setAt _ n rest v⟩
  · have htold : told group name (.name first :: steps) v = [] := by
      unfold told
      split <;> simp_all
    rw [if_neg (Ne.symm hfirst), htold]
    exact ⟨rfl, hgrouped⟩

/-- The source says nothing of the setting but in tables. -/
def InTables (group name : String) (source : List (String × Setting)) : Prop :=
  ∀ entry ∈ source, strays group name (readPath entry.1) entry.2 = false

instance (group name : String) (source : List (String × Setting)) :
    Decidable (InTables group name source) :=
  inferInstanceAs (Decidable (∀ entry ∈ source, _))

theorem layOver_cons (base : Setting) (entry : String × Setting)
    (rest : List (String × Setting)) :
    layOver base (entry :: rest) = layOver (setAt base (readPath entry.1) entry.2) rest := rfl

theorem at?_layOver (hgrouped : base.Grouped group) (htables : InTables group name source) :
    (layOver base source).at? group name = stack (base.at? group name) (said group name source) ∧
      (layOver base source).Grouped group := by
  induction source generalizing base with
  | nil => exact ⟨rfl, hgrouped⟩
  | cons entry rest ih =>
    obtain ⟨first, steps, hpath⟩ := readPath_eq entry.1
    have hstrays := htables entry List.mem_cons_self
    rw [hpath] at hstrays
    obtain ⟨hat, hentry⟩ := at?_setAt hgrouped first steps hstrays
    obtain ⟨hrest, hgroup⟩ := ih hentry fun e he => htables e (List.mem_cons_of_mem _ he)
    have hsaid : said group name (entry :: rest) =
        told group name (.name first :: steps) entry.2 ++ said group name rest := by
      rw [said, List.flatMap_cons, hpath, said]
    rw [layOver_cons, hpath, hrest, hat, hsaid, stack_append]
    exact ⟨rfl, hgroup⟩

theorem isTable_layOver (h : base.isTable = true) (source : List (String × Setting)) :
    (layOver base source).isTable = true := by
  induction source generalizing base with
  | nil => exact h
  | cons entry rest ih =>
    obtain ⟨first, steps, hpath⟩ := readPath_eq entry.1
    rw [layOver_cons, hpath]
    exact ih (isTable_setAt base first steps entry.2)

/-- Sources that are laid over one another are laid on as one. -/
theorem foldl_layOver (base : Setting) (sources : List (List (String × Setting))) :
    sources.foldl layOver base = layOver base sources.flatten :=
  List.foldl_flatten.symm

theorem said_flatten (group name : String) (sources : List (List (String × Setting))) :
    said group name sources.flatten = sources.flatMap (said group name) := by
  induction sources with
  | nil => rfl
  | cons source rest ih =>
    rw [List.flatten_cons, List.flatMap_cons, said, List.flatMap_append, ← said, ← said, ih]

theorem grouped_empty (group : String) : (table []).Grouped group := fun _ hfound => nomatch hfound

end Setting

end Turnstile
