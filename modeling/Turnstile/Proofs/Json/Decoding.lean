import Turnstile.Json.Decoder
import Turnstile.Proofs.Json.Spelling

/-! Decoders on the tokens of a value. A decoder takes a value as something when it gives that off
the value's tokens and leaves whatever stands behind them; lists and records take their items and
members one after the other. -/

namespace Turnstile.Json.Decoder

variable {α δ : Type} {a : α} {v : Value} {d : Decoder α} {s : String}

def Takes (d : Decoder α) (a : α) (v : Value) : Prop :=
  ∀ rest, d (v.tokens ++ rest) = .ok (a, rest)

/-! ## Single values -/

theorem takes_text (s : String) : Takes text s (.str s) := fun _ => rfl

theorem takes_bool (b : Bool) : Takes bool b (.bool b) := fun _ => rfl

theorem takes_count {bound n : Nat} (h : n < bound) : Takes (count bound) n (.nat n) := by
  intro rest
  simp [Value.nat, Value.tokens, count, Number.toNat?, Number.ofNat, h]

theorem takes_count64 (n : UInt64) : Takes count64 n (.nat n.toNat) := by
  intro rest
  simp only [count64, takes_count n.toNat_lt rest, bind, Except.bind]
  simp [pure, Except.pure]

theorem takes_count32 (n : UInt32) : Takes count32 n (.nat n.toNat) := by
  intro rest
  simp only [count32, takes_count n.toNat_lt rest, bind, Except.bind]
  simp [pure, Except.pure]

theorem takes_parsed {read : String → Option α} (h : read s = some a) :
    Takes (parsed read) a (.str s) := by
  intro rest
  simp only [parsed, takes_text s rest, bind, Except.bind, h]
  rfl

theorem takes_constant {read : String → Option α} (h : read s = some a) :
    Takes (constant read) a (.str s) := takes_parsed h

/-! ## Lists -/

theorem tokens_head (v : Value) :
    ∃ token rest, v.tokens = token :: rest ∧ token ≠ .closeArray := by
  cases v with
  | null => exact ⟨_, _, rfl, nofun⟩
  | bool => exact ⟨_, _, rfl, nofun⟩
  | num => exact ⟨_, _, rfl, nofun⟩
  | str => exact ⟨_, _, rfl, nofun⟩
  | arr items => cases items <;> exact ⟨_, _, rfl, nofun⟩
  | obj members => cases members <;> exact ⟨_, _, rfl, nofun⟩

theorem length_moreItems (items : List Value) :
    items.length ≤ (Value.tokens.moreItems items).length := by
  induction items with
  | nil => exact Nat.zero_le _
  | cons v items ih =>
    simp only [Value.tokens.moreItems, List.length_cons, List.length_append]
    omega

variable {toValue : α → Value}

theorem itemsFrom_moreItems {items seen : List α} (h : ∀ a ∈ items, Takes d a (toValue a))
    {steps : Nat} (hsteps : items.length < steps) (rest : List Token) :
    itemsFrom d steps seen
      (Value.tokens.moreItems (items.map toValue) ++ .closeArray :: rest) =
        .ok (seen.reverse ++ items, rest) := by
  induction items generalizing seen steps with
  | nil =>
    obtain ⟨steps, rfl⟩ : ∃ k, steps = k + 1 := ⟨steps - 1, by omega⟩
    simp [Value.tokens.moreItems, itemsFrom]
  | cons a items ih =>
    obtain ⟨hfirst, hitems⟩ := List.forall_mem_cons.mp h
    rw [List.length_cons] at hsteps
    obtain ⟨steps, rfl⟩ : ∃ k, steps = k + 1 := ⟨steps - 1, by omega⟩
    obtain ⟨token, more, htokens, hopen⟩ := tokens_head (toValue a)
    have hhead : ((toValue a).tokens ++ (Value.tokens.moreItems (items.map toValue) ++
        .closeArray :: rest)).head? ≠ some .closeArray := by
      simp [htokens, hopen]
    rw [List.map_cons, Value.tokens.moreItems, List.cons_append, List.append_assoc, itemsFrom,
      if_neg hhead]
    simp only [hfirst _, bind, Except.bind]
    rw [ih hitems (by omega), List.reverse_cons, List.append_assoc]
    rfl

theorem takes_list {items : List α} (h : ∀ a ∈ items, Takes d a (toValue a)) :
    Takes (list d) items (.arr (items.map toValue)) := by
  intro rest
  cases items with
  | nil => rfl
  | cons a items =>
    obtain ⟨hfirst, hitems⟩ := List.forall_mem_cons.mp h
    obtain ⟨token, more, htokens, hopen⟩ := tokens_head (toValue a)
    have hlength := length_moreItems (items.map toValue)
    rw [List.length_map] at hlength
    have hread := hfirst (Value.tokens.moreItems (items.map toValue) ++ .closeArray :: rest)
    have htail : (Value.arr ((a :: items).map toValue)).tokens ++ rest =
        .openArray :: ((toValue a).tokens ++
          (Value.tokens.moreItems (items.map toValue) ++ .closeArray :: rest)) := by
      simp [Value.tokens]
    rw [htail]
    rw [htokens, List.cons_append] at hread ⊢
    rw [list, hread]
    · simp only [bind, Except.bind]
      rw [itemsFrom_moreItems hitems]
      · rfl
      · rw [List.length_append, List.length_cons]
        omega
    · intro _ hclose
      exact hopen (List.cons.inj hclose).1

/-! ## Records -/

variable {fields : List (Field δ)} {start last : δ} {finish : δ → Option α}

/-- Reading the members one by one takes the first draft to the last. -/
def Fills (fields : List (Field δ)) : δ → List (String × Value) → δ → Prop
  | draft, [], last => draft = last
  | draft, (name, v) :: rest, last => ∃ next,
    (∀ more, member fields draft name (.colon :: (v.tokens ++ more)) = .ok (next, more)) ∧
      Fills fields next rest last

theorem length_moreMembers (members : List (String × Value)) :
    members.length ≤ (Value.tokens.moreMembers members).length := by
  induction members with
  | nil => exact Nat.zero_le _
  | cons first members ih =>
    simp only [Value.tokens.moreMembers, List.length_cons, List.length_append]
    omega

theorem membersFrom_moreMembers {members : List (String × Value)} {draft : δ}
    (h : Fills fields draft members last) {steps : Nat} (hsteps : members.length < steps)
    (rest : List Token) :
    membersFrom fields steps draft (Value.tokens.moreMembers members ++ .closeObject :: rest) =
      .ok (last, rest) := by
  induction members generalizing draft steps with
  | nil =>
    obtain ⟨steps, rfl⟩ : ∃ k, steps = k + 1 := ⟨steps - 1, by omega⟩
    subst h
    rfl
  | cons first members ih =>
    obtain ⟨next, hmember, hrest⟩ := h
    rw [List.length_cons] at hsteps
    obtain ⟨steps, rfl⟩ : ∃ k, steps = k + 1 := ⟨steps - 1, by omega⟩
    simp only [Value.tokens.moreMembers, List.cons_append, List.append_assoc, membersFrom,
      hmember, bind, Except.bind]
    exact ih hrest (by omega)

/-- A known field that is not filled yet keeps what its decoder takes. -/
theorem member_of_field {name : String} {draft : δ} {get : δ → Option α} {set : δ → α → δ}
    {mayEnd : Bool}
    (hfield : fields.find? (·.name == name) = some (Field.of name d get set mayEnd))
    (hnew : get draft = none) (h : Takes d a v) (more : List Token) :
    member fields draft name (.colon :: (v.tokens ++ more)) = .ok (set draft a, more) := by
  simp only [member, hfield, Field.of, hnew, h more, bind, Except.bind]
  rfl

theorem takes_record {members : List (String × Value)} (h : Fills fields start members last)
    (hfinish : finish last = some a) : Takes (record fields start finish) a (.obj members) := by
  intro rest
  cases members with
  | nil =>
    subst h
    simp [Value.tokens, record, record.complete, hfinish]
  | cons first members =>
    obtain ⟨next, hmember, hrest⟩ := h
    have hlength := length_moreMembers members
    have htail : (Value.obj (first :: members)).tokens ++ rest =
        .openObject :: .str (some first.1) :: .colon :: (first.2.tokens ++
          (Value.tokens.moreMembers members ++ .closeObject :: rest)) := by
      simp [Value.tokens]
    rw [htail]
    simp only [record, hmember, bind, Except.bind]
    rw [membersFrom_moreMembers hrest]
    · simp [record.complete, hfinish]
    · rw [List.length_append, List.length_cons]
      omega

end Turnstile.Json.Decoder
