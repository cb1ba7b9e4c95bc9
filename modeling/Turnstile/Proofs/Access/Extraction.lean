import Turnstile.Access.Extraction
import Turnstile.Proofs.Text.Blank

/-! What a carrier holds. All the credentials on it stand in one list in the order of their places;
the one that is extracted is the first of them, and none of them is blank or has blanks around
it. -/

namespace Turnstile.Carrier

variable {c : Carrier} {value text : String} {found : Extracted}

/-- The credentials in some places, in the order of the places. -/
def heldIn (lookup : String → Option String) (places : List (String × Source)) : List Extracted :=
  places.filterMap fun (name, source) => ((lookup name).bind nonEmpty?).map (⟨·, source⟩)

/-- All the credentials on a carrier, in the order in which their places are tried. -/
def presented (c : Carrier) : List Extracted :=
  ((c.header "Authorization").bind ofAuthorization?).toList.map (⟨·, .authorization⟩) ++
    (heldIn c.header keyHeaders ++ heldIn c.query keyParameters)

theorem firstOf_eq_head? (lookup : String → Option String) (places : List (String × Source)) :
    firstOf lookup places = (heldIn lookup places).head? := by
  rw [heldIn, List.head?_filterMap, firstOf]

theorem extract_eq_head? (c : Carrier) : c.extract = c.presented.head? := by
  unfold extract presented
  cases (c.header "Authorization").bind ofAuthorization? with
  | some value => rfl
  | none =>
    simp only [firstOf_eq_head?, Option.toList_none, List.map_nil, List.nil_append,
      List.head?_append]

/-! ## Values -/

theorem trimmed_of_nonEmpty? (h : nonEmpty? text = some value) :
    Text.trim value = value ∧ value ≠ "" := by
  unfold nonEmpty? at h
  dsimp only at h
  split at h
  · cases h
  · rename_i hne
    rw [← Option.some.inj h]
    exact ⟨Text.trim_trim text, by simpa using hne⟩

theorem trimmed_of_ofAuthorization? (h : ofAuthorization? text = some value) :
    Text.trim value = value ∧ value ≠ "" := by
  unfold ofAuthorization? at h
  dsimp only at h
  split at h
  · split at h
    · exact trimmed_of_nonEmpty? h
    · split at h
      · cases h
      · exact trimmed_of_nonEmpty? h
  · exact trimmed_of_nonEmpty? h

theorem trimmed_of_heldIn {lookup : String → Option String} {places : List (String × Source)}
    (h : found ∈ heldIn lookup places) :
    Text.trim found.value = found.value ∧ found.value ≠ "" := by
  obtain ⟨place, -, hplace⟩ := List.mem_filterMap.mp h
  obtain ⟨value, hvalue, rfl⟩ := Option.map_eq_some_iff.mp hplace
  obtain ⟨text, -, htext⟩ := Option.bind_eq_some_iff.mp hvalue
  exact trimmed_of_nonEmpty? htext

theorem trimmed_of_presented (h : found ∈ c.presented) :
    Text.trim found.value = found.value ∧ found.value ≠ "" := by
  rcases List.mem_append.mp h with hauthorization | hkeys
  · obtain ⟨value, hvalue, rfl⟩ := List.mem_map.mp hauthorization
    obtain ⟨text, -, htext⟩ := Option.bind_eq_some_iff.mp (Option.mem_toList.mp hvalue)
    exact trimmed_of_ofAuthorization? htext
  · rcases List.mem_append.mp hkeys with hheaders | hquery
    · exact trimmed_of_heldIn hheaders
    · exact trimmed_of_heldIn hquery

theorem trimmed_of_extract (h : c.extract = some found) :
    Text.trim found.value = found.value ∧ found.value ≠ "" := by
  rw [extract_eq_head?] at h
  exact trimmed_of_presented (List.mem_of_head? h)

end Turnstile.Carrier
