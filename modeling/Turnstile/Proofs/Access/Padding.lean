import Turnstile.Proofs.Access.Precedence

/-! Blanks around the values that a carrier holds. Values are trimmed, so the blanks make no
difference, save where an `Authorization` value is the name of a scheme and nothing else. With a
space after it the name opens a scheme that holds no credential; without one, as where trailing
blanks were taken away on the way, the name itself is taken for the credential. -/

namespace Turnstile

namespace Text

/-- The schemes that have a credential of their own, or none. -/
def schemeNames : List String := ["bearer", "basic"]

/-- The value is the name of a scheme and a space right after it, with nothing else but blanks. -/
def isEmptyScheme (value : String) : Bool :=
  schemeNames.any fun name =>
    equalIgnoringAsciiCase (trim value) name && (after? (name ++ " ") (trimStart value)).isSome

variable {value name : String} {scheme token : List Char}

theorem isBlank_toLower (c : Char) : isBlank c.toLower = isBlank c :=
  toLower_invariant (by decide) c

/-- No blank stands in the name of a scheme, whatever the case of its letters. -/
theorem isBlank_of_name {a : String} (hname : name ∈ schemeNames)
    (h : equalIgnoringAsciiCase a name = true) : ∀ c ∈ a.toList, isBlank c = false := by
  have hplain : ∀ name ∈ schemeNames, (name.toList.all fun c => !isBlank c) = true := by decide
  intro c hc
  have hlower : c.toLower ∈ a.toList.map Char.toLower := List.mem_map_of_mem hc
  rw [equalIgnoringAsciiCase_iff.mp h, List.mem_map] at hlower
  obtain ⟨d, hd, hsame⟩ := hlower
  rw [← isBlank_toLower, ← hsame, isBlank_toLower]
  simpa using List.all_eq_true.mp (hplain name hname) d hd

theorem not_mem_of_name {a : String} (hname : name ∈ schemeNames)
    (h : equalIgnoringAsciiCase a name = true) : ' ' ∉ a.toList := by
  intro hmem
  exact absurd (isBlank_of_name hname h ' ' hmem) (by decide)

theorem not_name_of_empty (hname : name ∈ schemeNames) :
    equalIgnoringAsciiCase "" name = false := by
  have hall : ∀ name ∈ schemeNames, equalIgnoringAsciiCase "" name = false := by decide
  exact hall name hname

theorem isEmptyScheme_of_mark (hscheme : ' ' ∉ scheme)
    (hvalue : (trimStart value).toList = scheme ++ ' ' :: token) :
    isEmptyScheme value = true ↔ ∃ name ∈ schemeNames,
      equalIgnoringAsciiCase (trim value) name = true ∧
        equalIgnoringAsciiCase (String.ofList scheme) name = true := by
  simp only [isEmptyScheme, List.any_eq_true, Bool.and_eq_true]
  refine exists_congr fun name => and_congr_right fun hname => and_congr_right fun _ => ?_
  have hplain : ' ' ∉ name.toList :=
    not_mem_of_name hname (equalIgnoringAsciiCase_iff.mpr rfl)
  rw [after?_word name hplain hscheme hvalue]
  split <;> simp [*]

theorem isEmptyScheme_of_unmarked (h : ' ' ∉ (trimStart value).toList) :
    isEmptyScheme value = false := by
  simp [isEmptyScheme, after?_of_unmarked _ h]

end Text

namespace Carrier

variable {c c' : Carrier} {found : Extracted} {value : String}

/-! ## One value -/

theorem nonEmpty?_of_blank {tail : List Char} (h : ∀ c ∈ tail, Text.isBlank c = true) :
    nonEmpty? (String.ofList tail) = none := by
  have htrim : Text.trim (String.ofList ([] ++ tail)) = Text.trim (String.ofList []) :=
    Text.trim_append_of_blank h
  rw [List.nil_append] at htrim
  rw [nonEmpty?_congr htrim]
  decide

/-- Where a space stands inside the value, the scheme ends there whatever blanks are around. -/
theorem ofAuthorization?_of_token (h : ' ' ∈ (Text.trim value).toList) :
    Text.isEmptyScheme value = false ∧
      ofAuthorization? value = ofAuthorization? (Text.trim value) := by
  obtain ⟨tail, htail, hvalue⟩ := Text.exists_blank_tail value
  obtain ⟨scheme, token, hscheme, hcut⟩ := Text.exists_first_mark h
  have hpadded : (Text.trimStart value).toList = scheme ++ ' ' :: (token ++ tail) := by
    rw [hvalue, hcut, List.append_assoc, List.cons_append]
  have htrimmed : (Text.trimStart (Text.trim value)).toList = scheme ++ ' ' :: token := by
    rw [Text.trimStart_trim, hcut]
  constructor
  · rw [Bool.eq_false_iff, ne_eq, Text.isEmptyScheme_of_mark hscheme hpadded]
    rintro ⟨name, hname, hsame, -⟩
    exact Text.not_mem_of_name hname hsame h
  · rw [ofAuthorization?_of_mark hscheme hpadded, ofAuthorization?_of_mark hscheme htrimmed,
      nonEmpty?_congr (Text.trim_append_of_blank htail), nonEmpty?_congr (Text.trim_trim value)]

/-- Where the first space stands behind the value, it ends a scheme only if it follows the name of
one. -/
theorem ofAuthorization?_of_space {before rest : List Char}
    (h : ' ' ∉ (Text.trim value).toList ++ before)
    (hblank : ∀ c ∈ before ++ rest, Text.isBlank c = true)
    (hvalue : (Text.trimStart value).toList =
      ((Text.trim value).toList ++ before) ++ ' ' :: rest) :
    ofAuthorization? value = if Text.isEmptyScheme value then none else nonEmpty? value := by
  have hrest : nonEmpty? (String.ofList rest) = none :=
    nonEmpty?_of_blank fun c hc => hblank c (List.mem_append_right before hc)
  -- a name that is found before the space has no blanks in it, so it is all of the value
  have hnamed : ∀ name ∈ Text.schemeNames, Text.equalIgnoringAsciiCase
      (String.ofList ((Text.trim value).toList ++ before)) name = true →
        Text.equalIgnoringAsciiCase (Text.trim value) name = true := by
    intro name hname hsame
    have hplain := Text.isBlank_of_name hname hsame
    cases before with
    | nil => rwa [List.append_nil, String.ofList_toList] at hsame
    | cons blank more =>
      have hisBlank := hblank blank (by simp)
      rw [hplain blank (by simp)] at hisBlank
      cases hisBlank
  rw [ofAuthorization?_of_mark h hvalue, hrest]
  by_cases hempty : Text.isEmptyScheme value = true
  · rw [if_pos hempty]
    obtain ⟨name, hname, -, hsame⟩ := (Text.isEmptyScheme_of_mark h hvalue).mp hempty
    simp only [Text.schemeNames, List.mem_cons, List.not_mem_nil, or_false] at hname
    rcases hname with rfl | rfl
    · rw [if_pos hsame]
    · rw [if_pos hsame, ite_self]
  · have hother : ∀ name ∈ Text.schemeNames, ¬ Text.equalIgnoringAsciiCase
        (String.ofList ((Text.trim value).toList ++ before)) name = true := fun name hname hsame =>
      hempty ((Text.isEmptyScheme_of_mark h hvalue).mpr
        ⟨name, hname, hnamed name hname hsame, hsame⟩)
    rw [if_neg hempty, if_neg (hother "bearer" (by decide)), if_neg (hother "basic" (by decide))]

/-- Blanks around a value matter only where it holds a scheme and no credential. -/
theorem ofAuthorization?_eq_trim (value : String) :
    ofAuthorization? value =
      if Text.isEmptyScheme value then none else ofAuthorization? (Text.trim value) := by
  by_cases hcore : ' ' ∈ (Text.trim value).toList
  · obtain ⟨hfull, hsame⟩ := ofAuthorization?_of_token hcore
    rw [hfull, hsame, if_neg Bool.false_ne_true]
  · have hbare : ofAuthorization? (Text.trim value) = nonEmpty? (Text.trim value) :=
      ofAuthorization?_of_unmarked (by rwa [Text.trimStart_trim])
    rw [hbare, nonEmpty?_congr (Text.trim_trim value)]
    obtain ⟨tail, htail, hvalue⟩ := Text.exists_blank_tail value
    by_cases hmark : ' ' ∈ tail
    · obtain ⟨before, rest, hbefore, rfl⟩ := Text.exists_first_mark hmark
      rw [← List.append_assoc] at hvalue
      refine ofAuthorization?_of_space ?_ ?_ hvalue
      · simp [hcore, hbefore]
      · intro c hc
        refine htail c ?_
        rcases List.mem_append.mp hc with hc | hc <;> simp [hc]
    · have hunmarked : ' ' ∉ (Text.trimStart value).toList := by
        simp [hvalue, hcore, hmark]
      rw [Text.isEmptyScheme_of_unmarked hunmarked, ofAuthorization?_of_unmarked hunmarked,
        if_neg Bool.false_ne_true]

/-! ## Carriers -/

/-- Every value of the one is a value of the other, but for the blanks around it. -/
structure Repadded (c c' : Carrier) : Prop where
  header : ∀ name, (c.header name).map Text.trim = (c'.header name).map Text.trim
  query : ∀ name, (c.query name).map Text.trim = (c'.query name).map Text.trim

theorem Repadded.symm (h : c.Repadded c') : c'.Repadded c :=
  ⟨fun name => (h.header name).symm, fun name => (h.query name).symm⟩

/-- The `Authorization` header holds a scheme and no credential. -/
def hasEmptyScheme (c : Carrier) : Bool := (c.header "Authorization").any Text.isEmptyScheme

theorem bind_nonEmpty?_congr {a b : Option String} (h : a.map Text.trim = b.map Text.trim) :
    a.bind nonEmpty? = b.bind nonEmpty? := by
  have htrim (given : Option String) :
      given.bind nonEmpty? = (given.map Text.trim).bind nonEmpty? := by
    cases given with
    | none => rfl
    | some value =>
      rw [Option.map_some, Option.bind_some, Option.bind_some,
        nonEmpty?_congr (Text.trim_trim value)]
  rw [htrim a, h, ← htrim]

theorem firstOf_congr {lookup lookup' : String → Option String}
    (h : ∀ name, (lookup name).map Text.trim = (lookup' name).map Text.trim)
    (places : List (String × Source)) : firstOf lookup places = firstOf lookup' places := by
  simp only [firstOf, bind_nonEmpty?_congr (h _)]

theorem bind_ofAuthorization?_eq (c : Carrier) :
    (c.header "Authorization").bind ofAuthorization? =
      if c.hasEmptyScheme then none
      else ((c.header "Authorization").map Text.trim).bind ofAuthorization? := by
  rw [hasEmptyScheme]
  cases c.header "Authorization" with
  | none => rfl
  | some value =>
    rw [Option.map_some, Option.bind_some, Option.bind_some, Option.any_some,
      ofAuthorization?_eq_trim value]

theorem source_of_firstOf {lookup : String → Option String} {places : List (String × Source)}
    (h : firstOf lookup places = some found) : ∃ name, (name, found.source) ∈ places := by
  obtain ⟨place, hplace, hfound⟩ := List.exists_of_findSome?_eq_some h
  obtain ⟨value, -, rfl⟩ := Option.map_eq_some_iff.mp hfound
  exact ⟨place.1, hplace⟩

/-- Only the `Authorization` header gives a credential with that place. -/
theorem extract_authorization_iff :
    c.extract = some ⟨value, .authorization⟩ ↔
      (c.header "Authorization").bind ofAuthorization? = some value := by
  rw [extract]
  cases (c.header "Authorization").bind ofAuthorization? with
  | some text => simp
  | none =>
    simp only [reduceCtorEq, iff_false, Option.or_eq_some_iff, not_or]
    refine ⟨fun hheader => ?_, fun hquery => ?_⟩
    · obtain ⟨name, hplace⟩ := source_of_firstOf hheader
      simp [keyHeaders] at hplace
    · obtain ⟨name, hplace⟩ := source_of_firstOf hquery.2
      simp [keyParameters] at hplace

/-- A scheme without a credential passes the request on; its bare name stops it. -/
theorem extract_ne_of_emptyScheme (h : c.Repadded c') (hempty : c.hasEmptyScheme = true)
    (hfull : c'.hasEmptyScheme = false) : c.extract ≠ c'.extract := by
  obtain ⟨value, hvalue, hscheme⟩ := (Option.any_eq_true _ _).mp hempty
  have hname : ' ' ∉ (Text.trim value).toList ∧ Text.trim value ≠ "" := by
    simp only [Text.isEmptyScheme, List.any_eq_true, Bool.and_eq_true] at hscheme
    obtain ⟨name, hname, hsame, -⟩ := hscheme
    refine ⟨Text.not_mem_of_name hname hsame, ?_⟩
    intro hnone
    rw [hnone, Text.not_name_of_empty hname] at hsame
    cases hsame
  have hgiven : (c'.header "Authorization").map Text.trim = some (Text.trim value) := by
    rw [← h.header, hvalue, Option.map_some]
  have hnone : (c.header "Authorization").bind ofAuthorization? = none := by
    rw [bind_ofAuthorization?_eq, hempty, if_pos rfl]
  have hsome : (c'.header "Authorization").bind ofAuthorization? = some (Text.trim value) := by
    rw [bind_ofAuthorization?_eq, hfull, if_neg Bool.false_ne_true, hgiven, Option.bind_some,
      ofAuthorization?_of_unmarked (by rw [Text.trimStart_trim]; exact hname.1), nonEmpty?_eq,
      Text.trim_trim, if_neg hname.2]
  intro hsame
  rw [← extract_authorization_iff, ← hsame, extract_authorization_iff, hnone] at hsome
  cases hsome

/-- Blanks around the values of a carrier make no difference, unless one of the two carriers holds
a scheme without a credential and the other holds no more than its name. -/
theorem extract_repadded_iff (h : c.Repadded c') :
    c.extract = c'.extract ↔ c.hasEmptyScheme = c'.hasEmptyScheme := by
  constructor
  · intro hsame
    cases hc : c.hasEmptyScheme with
    | true =>
      cases hc' : c'.hasEmptyScheme with
      | true => rfl
      | false => exact absurd hsame (extract_ne_of_emptyScheme h hc hc')
    | false =>
      cases hc' : c'.hasEmptyScheme with
      | true => exact absurd hsame.symm (extract_ne_of_emptyScheme h.symm hc' hc)
      | false => rfl
  · intro hscheme
    rw [extract, extract, bind_ofAuthorization?_eq, bind_ofAuthorization?_eq, hscheme,
      h.header "Authorization", firstOf_congr h.header, firstOf_congr h.query]

/-- A carrier with that `Authorization` value and a key in another header. -/
def headed (authorization key : String) : Carrier where
  header name :=
    if name = "Authorization" then some authorization
    else if name = "X-Api-Key" then some key
    else none
  query _ := none

theorem repadded_headed {a a' b b' : String} (ha : Text.trim a = Text.trim a')
    (hb : Text.trim b = Text.trim b') : (headed a b).Repadded (headed a' b') := by
  refine ⟨fun name => ?_, fun name => rfl⟩
  simp only [headed]
  split
  · simp [ha]
  · split <;> simp [hb]

theorem extract_repadded_headed :
    (headed " bearer \t" " tk_gate").Repadded (headed "bearer \n" "tk_gate\t") ∧
      (headed " bearer \t" " tk_gate").extract = (headed "bearer \n" "tk_gate\t").extract := by
  have hpadded : (headed " bearer \t" " tk_gate").Repadded (headed "bearer \n" "tk_gate\t") :=
    repadded_headed (by decide +kernel) (by decide +kernel)
  exact ⟨hpadded, (extract_repadded_iff hpadded).mpr (by decide +kernel)⟩

/-- A bearer scheme without a token passes the request on to the next header. Once the space after
it is taken away, the name of the scheme is the credential. -/
theorem extract_differs_without_space :
    (headed "Bearer " "tk_gate").Repadded (headed "Bearer" "tk_gate") ∧
      (headed "Bearer " "tk_gate").extract = some ⟨"tk_gate", .apiKeyHeader⟩ ∧
      (headed "Bearer" "tk_gate").extract = some ⟨"Bearer", .authorization⟩ :=
  ⟨repadded_headed (by decide +kernel) (by decide +kernel), by decide +kernel, by decide +kernel⟩

end Carrier
end Turnstile
