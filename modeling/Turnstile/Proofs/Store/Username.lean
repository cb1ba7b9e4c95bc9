import Turnstile.Proofs.Store.Account

/-! Names that one account answers to. Names with one lower case are the same name, and the two ways
in which they are compared come to that one rule. So the spelling of a name changes neither whether
it is taken nor which user it leads to, and neither do the spellings of the names in store. -/

namespace Turnstile

theorem equivalence_sameUsername : Equivalence fun a b => sameUsername a b = true where
  refl _ := sameUsername_iff.mpr rfl
  symm h := sameUsername_iff.mpr (sameUsername_iff.mp h).symm
  trans h h' := sameUsername_iff.mpr ((sameUsername_iff.mp h).trans (sameUsername_iff.mp h'))

theorem sameUsername_congr {a a' b b' : String} (ha : sameUsername a a' = true)
    (hb : sameUsername b b' = true) : sameUsername a b = sameUsername a' b' := by
  rw [Bool.eq_iff_iff, sameUsername_iff, sameUsername_iff, sameUsername_iff.mp ha,
    sameUsername_iff.mp hb]

theorem eq_empty_iff_of_sameUsername {a b : String} (h : sameUsername a b = true) :
    a = "" ↔ b = "" := by
  rw [← Text.toLower_eq_empty_iff, sameUsername_iff.mp h, Text.toLower_eq_empty_iff]

/-- The same users up to the spelling of their names. -/
abbrev Respelled (users users' : List User) : Prop :=
  List.Forall₂ (fun u u' => u.id = u'.id ∧ sameUsername u.username u'.username = true) users users'

namespace Store

variable {s t : Store} {name name' : String}

theorem nameTaken_congr (id : String) (h : Respelled s.users t.users)
    (hname : sameUsername name name' = true) : s.nameTaken id name = t.nameTaken id name' := by
  rw [nameTaken, nameTaken]
  generalize s.users = users at h
  generalize t.users = users' at h
  induction h with
  | nil => rfl
  | cons hsame _ ih =>
    rw [List.any_cons, List.any_cons, ih, hsame.1, sameUsername_congr hsame.2 hname]

theorem findUserByName?_congr (h : sameUsername (Text.trim name) (Text.trim name') = true) :
    s.findUserByName? name = s.findUserByName? name' := by
  have htest (u : User) : sameUsername u.username (Text.trim name) =
      sameUsername u.username (Text.trim name') :=
    sameUsername_congr (equivalence_sameUsername.refl u.username) h
  simp only [findUserByName?_eq, eq_empty_iff_of_sameUsername h, htest]

end Store

/-- To be the same name is an equivalence of texts. Names that differ in the case of letters of
ASCII have one lower case, so it is equality in lower case, and every name is taken or not, and
leads to a user or to none, with all names that are the same. -/
theorem sameUsername_equivalence :
    Equivalence (fun a b => sameUsername a b = true) ∧
      (∀ a b, Text.equalIgnoringAsciiCase a b = true → Text.toLower a = Text.toLower b) ∧
      (∀ a b, sameUsername a b = true ↔ Text.toLower a = Text.toLower b) ∧
      (∀ (s t : Store) (id name name' : String), Respelled s.users t.users →
        sameUsername name name' = true → s.nameTaken id name = t.nameTaken id name') ∧
      ∀ (s : Store) (name name' : String),
        sameUsername (Text.trim name) (Text.trim name') = true →
          s.findUserByName? name = s.findUserByName? name' :=
  ⟨equivalence_sameUsername, fun _ _ => Text.toLower_eq_of_equalIgnoringAsciiCase,
    fun _ _ => sameUsername_iff, fun _ _ id _ _ h hname => Store.nameTaken_congr id h hname,
    fun _ _ _ => Store.findUserByName?_congr⟩

/-- A letter after the point keeps a sigma from ending the word, whatever its case. -/
example : sameUsername "ΟΔΟΣ.A" "οδοσ.a" = true ∧ sameUsername "ΟΔΟΣ" "οδοσ" = false := by
  decide +kernel

end Turnstile
