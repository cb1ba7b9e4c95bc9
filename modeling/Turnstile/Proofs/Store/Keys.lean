import Turnstile.Store.Keys
import Turnstile.Proofs.Lookup
import Mathlib.Data.List.Basic
import Mathlib.Data.List.Nodup

/-! The keys that are stored under one id. A store never makes two of them, but a file may hold
several, so what is said of one key is said where it is the only one with its id. A credential
or an id that a caller gives is looked up without the blanks around it, if anything is left. -/

namespace Turnstile.Store

variable {s : Store} {k : String} {key a : ApiKey}

/-- A store in memory that holds these keys and is not in use. -/
def stocked (keys : List ApiKey) : Store :=
  { Store.new none .epoch with records := { RecordSet.empty .epoch with apiKeys := keys } }

def keysWithId (s : Store) (k : String) : List ApiKey := s.apiKeys.filter (·.id == k)

/-- The concurrency limit of the first key with that id. -/
def limitOf (s : Store) (k : String) : UInt32 :=
  ((s.keyWithId? k).map ApiKey.concurrencyLimit).getD 0

theorem keyWithId?_of_keysWithId (h : s.keysWithId k = [key]) : s.keyWithId? k = some key := by
  rw [keyWithId?, ← List.head?_filter]
  exact congrArg List.head? h

theorem limitOf_of_keysWithId (h : s.keysWithId k = [key]) :
    s.limitOf k = key.concurrencyLimit := by
  rw [limitOf, keyWithId?_of_keysWithId h]; rfl

theorem mem_of_keysWithId (h : s.keysWithId k = [key]) : key ∈ s.apiKeys ∧ key.id = k := by
  have hm : key ∈ s.keysWithId k := h ▸ List.mem_singleton_self key
  exact ⟨List.mem_of_mem_filter hm, beq_iff_eq.mp (List.mem_filter.mp hm).2⟩

/-- A stored key with the id is the one key with it. -/
theorem eq_of_keysWithId (h : s.keysWithId k = [key]) (hm : a ∈ s.apiKeys) (hid : a.id = k) :
    a = key := by
  have ha : a ∈ s.keysWithId k := List.mem_filter.mpr ⟨hm, beq_iff_eq.mpr hid⟩
  rw [h] at ha
  exact List.mem_singleton.mp ha

/-- Where no two keys have one id, a stored key is the one key with its id. -/
theorem keysWithId_of_mem (hids : (s.apiKeys.map ApiKey.id).Nodup) (h : key ∈ s.apiKeys) :
    s.keysWithId key.id = [key] := by
  obtain ⟨before, rest, hl⟩ := List.append_of_mem h
  rw [hl, List.map_append, List.map_cons, List.nodup_append] at hids
  obtain ⟨-, hrest, hbefore⟩ := hids
  have hdrop {part : List ApiKey} (hpart : ∀ a ∈ part, a.id ≠ key.id) :
      part.filter (·.id == key.id) = [] := by
    rw [List.filter_eq_nil_iff]
    intro a ha hid
    exact hpart a ha (beq_iff_eq.mp hid)
  have hearlier : ∀ a ∈ before, a.id ≠ key.id := fun a ha =>
    hbefore _ (List.mem_map_of_mem ha) _ List.mem_cons_self
  have hlater : ∀ a ∈ rest, a.id ≠ key.id := fun a ha hid =>
    (List.nodup_cons.mp hrest).1 (hid ▸ List.mem_map_of_mem ha)
  have hself : (key :: rest).filter (·.id == key.id) = key :: rest.filter (·.id == key.id) :=
    List.filter_cons_of_pos (beq_self_eq_true key.id)
  rw [keysWithId, hl, List.filter_append, hself, hdrop hearlier, hdrop hlater, List.nil_append]

theorem keyWithId?_of_mem (hids : (s.apiKeys.map ApiKey.id).Nodup) (h : key ∈ s.apiKeys) :
    s.keyWithId? key.id = some key :=
  keyWithId?_of_keysWithId (keysWithId_of_mem hids h)

/-! ## Look-ups -/

theorem findKey?_eq (s : Store) (credential : String) :
    s.findKey? credential =
      if Text.trim credential = "" then none
      else s.keyWithCredential? (Text.trim credential) := by
  simp only [findKey?, String.isEmpty_iff]

theorem findKey?_eq_some_iff {credential : String} :
    s.findKey? credential = some key ↔
      Text.trim credential ≠ "" ∧ s.keyWithCredential? (Text.trim credential) = some key := by
  rw [findKey?_eq]
  split <;> simp [*]

theorem findKeyById?_eq (s : Store) (id : String) :
    s.findKeyById? id =
      if Text.trim id = "" then none else s.keyWithId? (Text.trim id) := by
  simp only [findKeyById?, String.isEmpty_iff]

/-- A deletion looks its key up by the id and removes all keys that have it. -/
theorem deleteKey_eq (s : Store) (id : String) :
    s.deleteKey id =
      match s.findKeyById? id with
      | none => (.error .keyNotFound, s)
      | some key =>
        (.ok (), { s.withApiKeys (s.apiKeys.filter (·.id != key.id)) with
          inFlight := s.inFlight.remove key.id }) := by
  rw [findKeyById?_eq]
  simp only [deleteKey, String.isEmpty_iff]
  by_cases hblank : Text.trim id = ""
  · rw [if_pos hblank, if_pos hblank]
  rw [if_neg hblank, if_neg hblank]
  cases hfound : s.keyWithId? (Text.trim id) with
  | none =>
    rw [if_neg]
    simpa [keyWithId?] using hfound
  | some key =>
    have hid : key.id = Text.trim id := Lookup.name_of_find? hfound
    have hstored : s.apiKeys.any (·.id == Text.trim id) = true :=
      List.any_eq_true.mpr ⟨key, List.mem_of_find?_eq_some hfound, beq_iff_eq.mpr hid⟩
    rw [if_pos hstored, ← hid]

/-- An id with keys left after a deletion is not the deleted one. -/
theorem ne_of_filter_ne_nil {id : String}
    (h : (s.apiKeys.filter (·.id != id)).filter (·.id == k) ≠ []) : k ≠ id := by
  rintro rfl
  apply h
  simp [List.filter_filter]

theorem mem_of_findKey? {credential : String} (h : s.findKey? credential = some key) :
    key ∈ s.apiKeys :=
  List.mem_of_find?_eq_some (findKey?_eq_some_iff.mp h).2

/-! ## Replaced keys -/

/-- The first item that passes the test gives its place to the new one. -/
theorem replaceFirst_eq_append {α : Type} {test : α → Bool} {l : List α} {b : α} (c : α)
    (h : l.find? test = some b) :
    ∃ before rest, l = before ++ b :: rest ∧ replaceFirst test c l = before ++ c :: rest := by
  induction l with
  | nil => cases h
  | cons first rest ih =>
    by_cases htest : test first = true
    · rw [List.find?_cons_of_pos htest] at h
      cases h
      exact ⟨[], rest, rfl, by rw [replaceFirst, if_pos htest]; rfl⟩
    · rw [List.find?_cons_of_neg htest] at h
      obtain ⟨before, rest', hl, hr⟩ := ih h
      refine ⟨first :: before, rest', by rw [hl]; rfl, ?_⟩
      rw [replaceFirst, if_neg htest, hr]
      rfl

theorem map_replaceFirst {α β : Type} {test : α → Bool} {l : List α} {b c : α} {f : α → β}
    (h : l.find? test = some b) (hf : f c = f b) : (replaceFirst test c l).map f = l.map f := by
  obtain ⟨before, rest, hl, hr⟩ := replaceFirst_eq_append c h
  rw [hr, hl, List.map_append, List.map_append, List.map_cons, List.map_cons, hf]

/-- The first item that passes the test gives its place to itself. -/
theorem replaceFirst_self {α : Type} {test : α → Bool} {l : List α} {b : α}
    (h : l.find? test = some b) : replaceFirst test b l = l := by
  obtain ⟨before, rest, hl, hr⟩ := replaceFirst_eq_append b h
  rw [hr, hl]

/-- The first item that passes the test is replaced at its position. -/
theorem replaceFirst_eq_set {α : Type} {test : α → Bool} {l : List α} {i : Nat} (c : α)
    (h : l.findIdx? test = some i) : replaceFirst test c l = l.set i c := by
  induction l generalizing i with
  | nil => cases h
  | cons first rest ih =>
    rw [List.findIdx?_cons] at h
    by_cases htest : test first = true
    · rw [if_pos htest, Option.some.injEq] at h
      rw [replaceFirst, if_pos htest, ← h, List.set_cons_zero]
    · rw [if_neg htest, Option.map_eq_some_iff] at h
      obtain ⟨j, hj, rfl⟩ := h
      rw [replaceFirst, if_neg htest, ih hj, List.set_cons_succ]

/-- Where no two keys have one id, a key that gives its place to a new one is the only one that
differs. -/
theorem replaceFirst_eq_map {l : List ApiKey} {test : ApiKey → Bool} {f : ApiKey → ApiKey}
    (hnodup : (l.map ApiKey.id).Nodup) (h : l.find? test = some key) :
    replaceFirst test (f key) l = l.map fun a => if a.id = key.id then f a else a := by
  obtain ⟨before, rest, hl, hr⟩ := replaceFirst_eq_append (f key) h
  have hkeeps {part : List ApiKey} (hpart : ∀ a ∈ part, a.id ≠ key.id) :
      part.map (fun a => if a.id = key.id then f a else a) = part :=
    (List.map_congr_left fun a ha => if_neg (hpart a ha)).trans (List.map_id part)
  rw [hl, List.map_append, List.map_cons, List.nodup_append] at hnodup
  obtain ⟨-, hrest, hbefore⟩ := hnodup
  rw [hr, hl, List.map_append, List.map_cons, if_pos rfl, hkeeps, hkeeps]
  · intro a ha hid
    exact (List.nodup_cons.mp hrest).1 (hid ▸ List.mem_map_of_mem ha)
  · intro a ha hid
    exact hbefore _ (List.mem_map_of_mem ha) _ List.mem_cons_self hid

/-- The one key with the id gives its place to the new one with the id. -/
theorem filter_replaceFirst_self {test : ApiKey → Bool} (c : ApiKey) (h : s.keysWithId k = [key])
    (hfound : s.apiKeys.find? test = some key) (hc : c.id = k) :
    (replaceFirst test c s.apiKeys).filter (·.id == k) = [c] := by
  obtain ⟨before, rest, hl, hr⟩ := replaceFirst_eq_append c hfound
  have hid := (mem_of_keysWithId h).2
  rw [keysWithId, hl, List.filter_append, List.filter_cons_of_pos (by simpa using hid)] at h
  obtain ⟨hbefore, hrest⟩ : before.filter (·.id == k) = [] ∧ rest.filter (·.id == k) = [] := by
    cases hb : before.filter (·.id == k) with
    | nil =>
      rw [hb, List.nil_append] at h
      exact ⟨rfl, (List.cons.inj h).2⟩
    | cons first others =>
      rw [hb] at h
      cases others <;> cases h
  rw [hr, List.filter_append, List.filter_cons_of_pos (by simpa using hc), hbefore, hrest]
  rfl

/-- A replaced key with another id leaves the keys with this id alone, or one is added to them. -/
theorem filter_replaceFirst_other {test : ApiKey → Bool} {b : ApiKey} (c : ApiKey)
    (hfound : s.apiKeys.find? test = some b) (hb : b.id ≠ k) :
    (replaceFirst test c s.apiKeys).filter (·.id == k) = s.keysWithId k ∨
      ((replaceFirst test c s.apiKeys).filter (·.id == k)).length =
        (s.keysWithId k).length + 1 := by
  obtain ⟨before, rest, hl, hr⟩ := replaceFirst_eq_append c hfound
  have hdrop : (b :: rest).filter (·.id == k) = rest.filter (·.id == k) :=
    List.filter_cons_of_neg (by simpa using hb)
  rw [keysWithId, hr, hl, List.filter_append, List.filter_append, hdrop]
  by_cases hc : c.id = k
  · rw [List.filter_cons_of_pos (by simpa using hc)]
    refine .inr ?_
    simp only [List.length_append, List.length_cons]
    omega
  · rw [List.filter_cons_of_neg (by simpa using hc)]
    exact .inl rfl

/-- The same of an appended key. -/
theorem filter_append_key (c : ApiKey) :
    (s.apiKeys ++ [c]).filter (·.id == k) = s.keysWithId k ∨
      ((s.apiKeys ++ [c]).filter (·.id == k)).length = (s.keysWithId k).length + 1 := by
  rw [List.filter_append, keysWithId]
  by_cases hc : c.id = k
  · rw [List.filter_cons_of_pos (by simpa using hc)]
    exact .inr (by rw [List.length_append]; rfl)
  · rw [List.filter_cons_of_neg (by simpa using hc)]
    exact .inl (List.append_nil _)

/-- The limits are a matter of the ids and the limits alone. -/
theorem limitOf_congr {t : Store}
    (h : t.apiKeys.map (fun a => (a.id, a.concurrencyLimit)) =
      s.apiKeys.map (fun a => (a.id, a.concurrencyLimit))) (k : String) :
    t.limitOf k = s.limitOf k := by
  have hlookup (u : Store) : (u.keyWithId? k).map ApiKey.concurrencyLimit =
      ((u.apiKeys.map fun a => (a.id, a.concurrencyLimit)).find? (·.1 == k)).map (·.2) := by
    rw [List.find?_map, Option.map_map]
    rfl
  rw [limitOf, limitOf, hlookup, hlookup, h]

end Turnstile.Store
