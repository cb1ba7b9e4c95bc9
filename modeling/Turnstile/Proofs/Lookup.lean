/-! Looking up what has a name, also in association lists from which one name was removed. -/

namespace Turnstile.Lookup

variable {α β : Type} [BEq α] [LawfulBEq α] {a b : α} {l : List (α × β)}

theorem lookup_filter_self : (l.filter (·.1 != a)).lookup a = none := by
  rw [List.lookup_eq_none_iff]
  intro entry hmem
  have hne : entry.1 ≠ a := bne_iff_ne.mp (List.mem_filter.mp hmem).2
  exact bne_iff_ne.mpr (Ne.symm hne)

theorem lookup_filter_of_ne (h : b ≠ a) : (l.filter (·.1 != a)).lookup b = l.lookup b := by
  have hne : (b == a) = false := beq_false_of_ne h
  induction l with
  | nil => rfl
  | cons entry rest ih =>
    obtain ⟨name, value⟩ := entry
    by_cases hn : name = a
    · subst hn
      simp [List.lookup_cons, hne, ih]
    · simp [hn, List.lookup_cons, ih]

/-- What is found under a name has it. -/
theorem name_of_find? {γ : Type} {name : γ → α} {c : γ} {items : List γ}
    (h : items.find? (name · == a) = some c) : name c = a := by
  have htest := List.find?_some h
  exact beq_iff_eq.mp htest

end Turnstile.Lookup
