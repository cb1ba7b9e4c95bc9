import Turnstile.Proofs.Settings.Layering

/-! One more entry among the entries of some sources. A single value for a setting that nothing
after it touches is the value that is read, and whatever could be read without it still can. -/

namespace Turnstile

namespace Setting

variable {v w x : Setting} {group name first other : String} {steps : List Step}
  {source : List (String × Setting)}

/-- The values differ at most in what stands under the name in the group. -/
structure AgreeBut (group name : String) (v w : Setting) : Prop where
  outside : ∀ g, g ≠ group → w.get? g = v.get? g
  inside : ∀ n, n ≠ name → w.at? group n = v.at? group n

theorem at?_put (v : Setting) (g : String) (x : Setting) (group n : String) :
    (v.put g x).at? group n = if group = g then x.get? n else v.at? group n := by
  rw [at?, get?_put]
  split <;> rfl

/-- A group that is missing holds nothing. -/
theorem get?_getD (v : Setting) {unset : Setting} (hunset : unset.entries = [])
    (group n : String) : ((v.get? group).getD unset).get? n = v.at? group n := by
  rw [at?]
  cases v.get? group with
  | none => exact congrArg (List.lookup n) hunset
  | some _ => rfl

/-- The group after an entry under its own name depends, but for the setting, on the rest of it. -/
theorem AgreeBut.setAt_group (h : AgreeBut group name v w) (hfirst : Text.toLower first = group)
    (hstrays : strays group name (.name first :: steps) x = false) {n : String} (hn : n ≠ name) :
    (setAt w (.name first :: steps) x).at? group n =
      (setAt v (.name first :: steps) x).at? group n := by
  rw [setAt_name_eq, setAt_name_eq, at?_put, at?_put, if_pos hfirst.symm, if_pos hfirst.symm,
    hfirst]
  cases steps with
  | nil =>
    obtain ⟨entries, rfl⟩ : ∃ entries, x = table entries :=
      isTable_eq_true_iff.mp (by simpa [strays, hfirst] using hstrays)
    rw [if_pos rfl, if_pos rfl, laidOn, laidOn, get?_overlayAll, get?_overlayAll,
      get?_getD w rfl, get?_getD v rfl, h.inside n hn]
  | cons step rest =>
    rw [if_neg (List.cons_ne_nil _ _), if_neg (List.cons_ne_nil _ _)]
    cases step with
    | index i => simp [strays, hfirst] at hstrays
    | name other =>
      rw [setAt_name_eq, setAt_name_eq, get?_put, get?_put]
      split
      · rename_i hother
        rw [← hother, get?_getD w rfl, get?_getD v rfl, h.inside n hn]
      · rw [get?_getD w rfl, get?_getD v rfl, h.inside n hn]

theorem AgreeBut.setAt (h : AgreeBut group name v w)
    (hstrays : strays group name (.name first :: steps) x = false) :
    AgreeBut group name (setAt v (.name first :: steps) x) (setAt w (.name first :: steps) x) := by
  by_cases hfirst : Text.toLower first = group
  · refine ⟨fun g hg => ?_, fun n hn => h.setAt_group hfirst hstrays hn⟩
    rw [setAt_name_eq, setAt_name_eq, get?_put, get?_put, hfirst, if_neg hg, if_neg hg,
      h.outside g hg]
  · -- the entry finds the same in both, and leaves the same
    rw [setAt_name_eq, setAt_name_eq, h.outside _ hfirst]
    refine ⟨fun g hg => ?_, fun n hn => ?_⟩
    · rw [get?_put, get?_put, h.outside g hg]
    · rw [at?_put, at?_put, if_neg (Ne.symm hfirst), if_neg (Ne.symm hfirst), h.inside n hn]

/-- A source that says nothing above or below the setting keeps all else the same. -/
theorem AgreeBut.layOver (h : AgreeBut group name v w) (htables : InTables group name source) :
    AgreeBut group name (layOver v source) (layOver w source) := by
  induction source generalizing v w with
  | nil => exact h
  | cons entry rest ih =>
    obtain ⟨first, steps, hpath⟩ := readPath_eq entry.1
    have hstrays := htables entry List.mem_cons_self
    rw [hpath] at hstrays
    rw [layOver_cons, layOver_cons, hpath]
    exact ih (h.setAt hstrays) fun e he => htables e (List.mem_cons_of_mem _ he)

/-! ## A single value -/

/-- The entry gives one value to the setting and says nothing else: under a path, or as all that it
says of the group. -/
inductive Sets (group name : String) (x : Setting) : String × Setting → Prop where
  | path {key : String} (hkey : readPath key = [.name group, .name name]) :
    Sets group name x (key, x)
  | group {key : String} (hkey : readPath key = [.name group]) :
    Sets group name x (key, table [(name, x)])

section

variable (hgroup : Text.toLower group = group) (hname : Text.toLower name = name)
include hgroup hname

theorem setAt_path (hx : x.isTable = false) (v : Setting) :
    setAt v [.name group, .name name] x =
      v.put group (((v.get? group).getD null).put name x) := by
  rw [setAt_name_eq, if_neg (List.cons_ne_nil _ _), setAt_name_eq, if_pos rfl, hgroup, hname,
    laidOn_of_not_table hx]

theorem setAt_group (hx : x.isTable = false) (v : Setting) :
    setAt v [.name group] (table [(name, x)]) =
      v.put group (((v.get? group).getD null).put name x) := by
  rw [setAt_name_eq, if_pos rfl, hgroup, laidOn, overlay.overlayAll, overlay.overlayAll,
    overlay_eq, hname, laidOn_of_not_table hx]
  cases v.get? group <;> rfl

variable {entry : String × Setting}

/-- After such an entry the value is there, and all else is as it was. -/
theorem Sets.inserted (hsets : Sets group name x entry) (hx : x.isTable = false) (v : Setting) :
    AgreeBut group name v (setAt v (readPath entry.1) entry.2) ∧
      (setAt v (readPath entry.1) entry.2).at? group name = some x ∧
      (setAt v (readPath entry.1) entry.2).Grouped group := by
  have hput : setAt v (readPath entry.1) entry.2 =
      v.put group (((v.get? group).getD null).put name x) := by
    cases hsets with
    | path hkey => rw [hkey, setAt_path hgroup hname hx]
    | group hkey => rw [hkey, setAt_group hgroup hname hx]
  rw [hput]
  refine ⟨⟨fun g hg => ?_, fun n hn => ?_⟩, ?_, fun u hu => ?_⟩
  · rw [get?_put, if_neg hg]
  · rw [at?_put, if_pos rfl, get?_put, if_neg hn, get?_getD v rfl]
  · rw [at?_put, if_pos rfl, get?_put, if_pos rfl]
  · rw [get?_put, if_pos rfl] at hu
    rw [← Option.some.inj hu, isTable_put]

theorem Sets.inserted_between (hsets : Sets group name x entry) (hx : x.isTable = false)
    (v : Setting) (front back : List (String × Setting)) (htables : InTables group name back)
    (hsaid : said group name back = []) :
    AgreeBut group name (layOver v (front ++ back)) (layOver v (front ++ entry :: back)) ∧
      (layOver v (front ++ entry :: back)).at? group name = some x := by
  have happend (source : List (String × Setting)) :
      layOver v (front ++ source) = layOver (layOver v front) source := List.foldl_append
  obtain ⟨hagree, hat, hgrouped⟩ := hsets.inserted hgroup hname hx (layOver v front)
  rw [happend, happend, layOver_cons]
  refine ⟨hagree.layOver htables, ?_⟩
  rw [(at?_layOver hgrouped htables).1, hsaid, hat]
  rfl

end

theorem grouped_of_at? (h : v.at? group name = some x) : v.Grouped group := by
  intro t ht
  rw [at?, ht, Option.bind_some] at h
  by_contra htable
  rw [get?, entries_of_not_table (Bool.eq_false_iff.mpr htable)] at h
  cases h

end Setting

namespace Config

variable {α β : Type} {v w x : Setting} {c : Config} {item : Item α} {a : α}

/-- Every setting has a name of its own. -/
theorem Item.isSome_convert_of_name {other : Item β} (h : other.name = item.name) :
    other.group = item.group ∧
      ((item.convert x).isSome = true → (other.convert x).isSome = true) := by
  cases item <;> cases other <;> first | exact ⟨rfl, id⟩ | exact absurd h (by decide)

theorem Item.toLower_group (item : Item α) : Text.toLower item.group = item.group := by
  cases item <;> decide +kernel

theorem Item.toLower_name (item : Item α) : Text.toLower item.name = item.name := by
  cases item <;> decide +kernel

/-- A group that is no list and no single value is read as it stands; in a list the setting has
another place, and nothing under its name. -/
theorem Item.isSome_read (hv : v.isTable = true) (h : (item.read? v).isSome = true) :
    (read (v.at? item.group item.name) item.convert (item.of {})).isSome = true := by
  rw [Item.read?, fieldOf?_of_table hv, Option.bind_eq_bind, Option.bind_some] at h
  cases hgroup : v.get? item.group with
  | none =>
    rw [Setting.at?, hgroup]
    rfl
  | some t =>
    rw [Setting.at?, hgroup, Option.bind_some]
    rw [hgroup] at h
    cases t with
    | table entries => exact h
    | list items => rfl
    | _ => cases h

/-- Where one setting gets a value that fits, what could be read of the others still can. -/
theorem ofSettings_of_agreeBut (hload : ofSettings v = some c) (hv : v.isTable = true)
    (hw : w.isTable = true) (hagree : Setting.AgreeBut item.group item.name v w)
    (hat : w.at? item.group item.name = some x) (hfits : item.convert x = some a) :
    ∃ c', ofSettings w = some c' ∧ item.of c' = a := by
  have hgrouped := Setting.grouped_of_at? hat
  have hitem : item.read? w = some a := by
    rw [Item.read?_of_grouped hw hgrouped, hat]
    exact hfits
  have hread {β : Type} (other : Item β) : (other.read? w).isSome = true := by
    have hbefore : (other.read? v).isSome = true := by
      rw [ofSettings_iff.mp hload other]
      rfl
    by_cases hname : other.name = item.name
    · obtain ⟨hgroup, hother⟩ := Item.isSome_convert_of_name (x := x) hname
      rw [Item.read?_of_grouped hw (hgroup ▸ hgrouped), hgroup, hname, hat]
      exact hother (by rw [hfits]; rfl)
    · by_cases hgroup : other.group = item.group
      · rw [Item.read?_of_grouped hw (hgroup ▸ hgrouped), hgroup, hagree.inside _ hname, ← hgroup]
        exact Item.isSome_read hv hbefore
      · rw [Item.read?, fieldOf?_of_table hw, hagree.outside _ hgroup, ← fieldOf?_of_table hv]
        exact hbefore
  refine ⟨ofItems fun other => (other.read? w).get (hread other),
    ofSettings_iff.mpr fun other => ?_, ?_⟩
  · rw [of_ofItems, Option.some_get]
  · rw [of_ofItems]
    exact Option.get_of_eq_some _ hitem

/-- An entry that sets a setting to a single value that fits, among entries which are read without
it and none of which after it touches the setting, is read as that value. -/
theorem ofSettings_inserted {entry : String × Setting} (front back : List (String × Setting))
    (hload : ofSettings (Setting.layOver (.table []) (front ++ back)) = some c)
    (hsets : Setting.Sets item.group item.name x entry) (hx : x.isTable = false)
    (hfits : item.convert x = some a) (htables : Setting.InTables item.group item.name back)
    (hsaid : item.said back = []) :
    ∃ c', ofSettings (Setting.layOver (.table []) (front ++ entry :: back)) = some c' ∧
      item.of c' = a := by
  obtain ⟨hagree, hat⟩ := hsets.inserted_between item.toLower_group item.toLower_name hx
    (.table []) front back htables hsaid
  exact ofSettings_of_agreeBut hload (Setting.isTable_layOver rfl _) (Setting.isTable_layOver rfl _)
    hagree hat hfits

end Config

end Turnstile
