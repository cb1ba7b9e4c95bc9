import Turnstile.Proofs.Access.Extraction
import Turnstile.Proofs.Text.Case
import Turnstile.Proofs.Text.Split

/-! The order of the places. A request is looked at in up to six places, one after the other, and
the first value that is not blank decides. What stands in the `Authorization` header counts without
its scheme if that is the bearer scheme, and not at all if it is the basic one. Places after the one
that decides are not looked at, and the second spelling of the key header only matters to carriers
that tell spellings apart. -/

namespace Turnstile

/-! ## Places -/

/-- A look-up on a carrier. -/
inductive Probe where
  | header (name : String)
  | query (name : String)
deriving DecidableEq

def Carrier.answer (c : Carrier) : Probe → Option String
  | .header name => c.header name
  | .query name => c.query name

/-- What stands behind the scheme: the rest if it is the bearer scheme, nothing if it is the basic
one, and all of a value without either. -/
def Text.unschemed (value : String) : Option String :=
  match after? "bearer " value with
  | some token => some token
  | none => if (after? "basic " value).isSome then none else some value

/-- What a value offers as a credential, before it is trimmed. -/
def Source.offer (source : Source) (value : String) : Option String :=
  match source with
  | .authorization => Text.unschemed (Text.trimStart value)
  | _ => some value

structure Carrier.Place where
  probe : Probe
  source : Source
deriving DecidableEq

namespace Carrier.Place

def all : List Place :=
  [⟨.header "Authorization", .authorization⟩, ⟨.header "X-Api-Key", .apiKeyHeader⟩,
    ⟨.header "X-Goog-Api-Key", .googleHeader⟩, ⟨.header "X-API-Key", .apiKeyHeader⟩,
    ⟨.query "key", .queryKey⟩, ⟨.query "auth_token", .queryToken⟩]

/-- What is offered on that place, trimmed, if anything is left of it. -/
def candidate? (c : Carrier) (place : Place) : Option Extracted :=
  ((c.answer place.probe).bind place.source.offer).bind fun offered =>
    if Text.trim offered = "" then none else some ⟨Text.trim offered, place.source⟩

end Carrier.Place

namespace Carrier

variable {c other : Carrier}

def candidates (c : Carrier) : List Extracted := Place.all.filterMap (·.candidate? c)

/-- The places up to the first one with a candidate, or all if there is none. -/
def consulted (c : Carrier) : List Place :=
  Place.all.take (Place.all.findIdx (fun place => (place.candidate? c).isSome) + 1)

/-- Headers are found under every spelling of their names. -/
def FoldsCase (c : Carrier) : Prop :=
  ∀ a b, Text.equalIgnoringAsciiCase a b = true → c.header a = c.header b

end Carrier

/-! ## The scheme -/

namespace Text

theorem toLower_eq_blank_iff {c : Char} : c.toLower = ' ' ↔ c = ' ' := by
  simpa using toLower_invariant (f := fun c => decide (c = ' ')) (by decide) c

theorem mem_of_map_toLower_eq {cs ds : List Char} (h : cs.map Char.toLower = ds.map Char.toLower) :
    ' ' ∈ cs ↔ ' ' ∈ ds := by
  have hblank (l : List Char) : ' ' ∈ l ↔ ' ' ∈ l.map Char.toLower := by
    simp [List.mem_map, toLower_eq_blank_iff]
  rw [hblank, h, ← hblank]

/-- A word with a blank after it is a start exactly if it is what stands before the first blank. -/
theorem after?_word {value : String} {scheme token : List Char} (word : String)
    (hword : ' ' ∉ word.toList) (hscheme : ' ' ∉ scheme)
    (hvalue : value.toList = scheme ++ ' ' :: token) :
    after? (word ++ " ") value =
      if equalIgnoringAsciiCase (String.ofList scheme) word then some (String.ofList token)
      else none := by
  have hmark : " ".toList = [' '] := rfl
  split
  · rename_i hsame
    rw [equalIgnoringAsciiCase_iff, String.toList_ofList] at hsame
    refine after?_eq_some_iff.mpr ⟨String.ofList (scheme ++ [' ']), ?_, ?_⟩
    · rw [← String.ofList_append, List.append_assoc, List.singleton_append, ← hvalue,
        String.ofList_toList]
    · rw [equalIgnoringAsciiCase_iff, String.toList_ofList, String.toList_append, hmark,
        List.map_append, List.map_append, hsame]
  · rename_i hother
    cases hafter : after? (word ++ " ") value with
    | none => rfl
    | some rest =>
      obtain ⟨given, hgiven, hsame⟩ := after?_eq_some_iff.mp hafter
      rw [equalIgnoringAsciiCase_iff, String.toList_append, hmark, List.map_append,
        List.map_eq_append_iff] at hsame
      obtain ⟨letters, blank, hletters, hfirst, hlast⟩ := hsame
      obtain ⟨mark, rfl, hlower⟩ := List.map_eq_singleton_iff.mp hlast
      have hplain : ' ' ∉ letters := fun hmem => hword ((mem_of_map_toLower_eq hfirst).mp hmem)
      -- both cuts are at the first blank, so what stands before it is the word
      have hcut : splitAt ' ' value.toList = (scheme, some token) := by
        rw [hvalue, splitAt_of_not_mem hscheme]
      rw [hgiven, String.toList_append, hletters, toLower_eq_blank_iff.mp hlower,
        List.append_assoc, List.singleton_append, splitAt_of_not_mem hplain, Prod.mk.injEq] at hcut
      rw [← hcut.1, equalIgnoringAsciiCase_iff, String.toList_ofList] at hother
      exact absurd hfirst hother

theorem after?_of_unmarked {value : String} (word : String) (h : ' ' ∉ value.toList) :
    after? (word ++ " ") value = none := by
  cases hafter : after? (word ++ " ") value with
  | none => rfl
  | some rest =>
    obtain ⟨given, rfl, hsame⟩ := after?_eq_some_iff.mp hafter
    have hmem : ' ' ∈ given.toList :=
      (mem_of_map_toLower_eq (equalIgnoringAsciiCase_iff.mp hsame)).mpr (by simp)
    rw [String.toList_append] at h
    exact absurd (List.mem_append_left _ hmem) h

theorem bearer_eq : "bearer " = "bearer" ++ " " := by decide

theorem basic_eq : "basic " = "basic" ++ " " := by decide

theorem unschemed_of_mark {value : String} {scheme token : List Char} (hscheme : ' ' ∉ scheme)
    (hvalue : value.toList = scheme ++ ' ' :: token) :
    unschemed value =
      if equalIgnoringAsciiCase (String.ofList scheme) "bearer" then some (String.ofList token)
      else if equalIgnoringAsciiCase (String.ofList scheme) "basic" then none
      else some value := by
  have hbearer := after?_word "bearer" (by decide) hscheme hvalue
  have hbasic := after?_word "basic" (by decide) hscheme hvalue
  rw [← bearer_eq] at hbearer
  rw [← basic_eq] at hbasic
  rw [unschemed, hbearer, hbasic]
  cases equalIgnoringAsciiCase (String.ofList scheme) "bearer" with
  | true => rfl
  | false => cases equalIgnoringAsciiCase (String.ofList scheme) "basic" <;> rfl

theorem unschemed_of_unmarked {value : String} (h : ' ' ∉ value.toList) :
    unschemed value = some value := by
  have hbearer := after?_of_unmarked "bearer" h
  have hbasic := after?_of_unmarked "basic" h
  rw [← bearer_eq] at hbearer
  rw [← basic_eq] at hbasic
  rw [unschemed, hbearer, hbasic]
  rfl

end Text

namespace Carrier

variable {c other : Carrier} {found : Extracted}

theorem nonEmpty?_eq (value : String) :
    nonEmpty? value = if Text.trim value = "" then none else some (Text.trim value) := by
  simp only [nonEmpty?, String.isEmpty_iff]

theorem nonEmpty?_congr {a b : String} (h : Text.trim a = Text.trim b) :
    nonEmpty? a = nonEmpty? b := by
  rw [nonEmpty?_eq, nonEmpty?_eq, h]

theorem ofAuthorization?_of_mark {value : String} {scheme token : List Char}
    (hscheme : ' ' ∉ scheme) (hvalue : (Text.trimStart value).toList = scheme ++ ' ' :: token) :
    ofAuthorization? value =
      if Text.equalIgnoringAsciiCase (String.ofList scheme) "bearer" then
        nonEmpty? (String.ofList token)
      else if Text.equalIgnoringAsciiCase (String.ofList scheme) "basic" then none
      else nonEmpty? value := by
  rw [ofAuthorization?, hvalue, Text.splitAt_of_not_mem hscheme,
    ← nonEmpty?_congr (Text.trim_trimStart value)]

theorem ofAuthorization?_of_unmarked {value : String} (h : ' ' ∉ (Text.trimStart value).toList) :
    ofAuthorization? value = nonEmpty? value := by
  rw [ofAuthorization?, Text.splitAt_of_unmarked h, ← nonEmpty?_congr (Text.trim_trimStart value)]

theorem ofAuthorization?_eq (value : String) :
    ofAuthorization? value = (Source.authorization.offer value).bind nonEmpty? := by
  rw [Source.offer]
  by_cases hmark : ' ' ∈ (Text.trimStart value).toList
  · obtain ⟨scheme, token, hscheme, hvalue⟩ := Text.exists_first_mark hmark
    rw [ofAuthorization?_of_mark hscheme hvalue, Text.unschemed_of_mark hscheme hvalue]
    split
    · rw [Option.bind_some]
    · split
      · rw [Option.bind_none]
      · rw [Option.bind_some, nonEmpty?_congr (Text.trim_trimStart value)]
  · rw [ofAuthorization?_of_unmarked hmark, Text.unschemed_of_unmarked hmark, Option.bind_some,
      nonEmpty?_congr (Text.trim_trimStart value)]

theorem candidate?_eq (c : Carrier) (place : Place) :
    place.candidate? c = ((c.answer place.probe).bind fun value =>
      (place.source.offer value).bind nonEmpty?).map (⟨·, place.source⟩) := by
  rw [Place.candidate?, Option.bind_assoc]
  cases c.answer place.probe with
  | none => rfl
  | some value =>
    rw [Option.bind_some, Option.bind_some]
    cases place.source.offer value with
    | none => rfl
    | some offered =>
      rw [Option.bind_some, Option.bind_some, nonEmpty?_eq]
      split <;> rfl

theorem candidate?_authorization (probe : Probe) :
    Place.candidate? c ⟨probe, .authorization⟩ =
      ((c.answer probe).bind ofAuthorization?).map (⟨·, .authorization⟩) := by
  rw [candidate?_eq]
  simp only [← ofAuthorization?_eq]

/-- Everywhere else the whole value is offered. -/
theorem candidate?_of_ne {source : Source} (h : source ≠ .authorization) (probe : Probe) :
    Place.candidate? c ⟨probe, source⟩ =
      ((c.answer probe).bind nonEmpty?).map (⟨·, source⟩) := by
  have hoffer : ∀ value, source.offer value = some value := by
    intro value
    cases source with
    | authorization => exact absurd rfl h
    | apiKeyHeader | googleHeader | queryKey | queryToken => rfl
  rw [candidate?_eq]
  simp only [hoffer, Option.bind_some]

theorem candidates_eq_presented (c : Carrier) : c.candidates = c.presented := by
  simp [candidates, presented, heldIn, Place.all, keyHeaders, keyParameters,
    List.filterMap_eq_flatMap_toList, candidate?_authorization, candidate?_of_ne, answer,
    ← Option.toList_map]

theorem extract_eq_findSome? (c : Carrier) : c.extract = Place.all.findSome? (·.candidate? c) := by
  rw [extract_eq_head?, ← candidates_eq_presented, candidates, List.head?_filterMap]

/-! ## What decides -/

/-- What comes after the first item that gives something does not matter. -/
theorem findSome?_eq_of_take {α β : Type} {f g : α → Option β} {items : List α}
    (h : ∀ a ∈ items.take (items.findIdx (fun a => (f a).isSome) + 1), g a = f a) :
    items.findSome? g = items.findSome? f := by
  induction items with
  | nil => rfl
  | cons a rest ih =>
    have ha : g a = f a := h a (by simp)
    rw [List.findSome?_cons, List.findSome?_cons, ha]
    cases hf : f a with
    | some b => rfl
    | none =>
      refine ih fun b hb => h b ?_
      rw [List.findIdx_cons, hf, Option.isSome_none, cond_false, List.take_succ_cons]
      exact List.mem_cons_of_mem a hb

theorem extract_congr (h : ∀ place ∈ c.consulted, other.answer place.probe = c.answer place.probe) :
    other.extract = c.extract := by
  rw [extract_eq_findSome?, extract_eq_findSome?]
  refine findSome?_eq_of_take fun place hplace => ?_
  rw [Place.candidate?, h place hplace, Place.candidate?]

/-- The second spelling finds nothing that the first one has not found. -/
theorem findSome?_of_foldsCase (h : c.FoldsCase) :
    (Place.all.filter (·.probe ≠ .header "X-API-Key")).findSome? (·.candidate? c) =
      c.extract := by
  have hspelled : Place.candidate? c ⟨.header "X-API-Key", .apiKeyHeader⟩ =
      Place.candidate? c ⟨.header "X-Api-Key", .apiKeyHeader⟩ := by
    rw [Place.candidate?, Place.candidate?]
    simp only [answer]
    rw [h "X-API-Key" "X-Api-Key" (by decide)]
  have hfilter : Place.all.filter (·.probe ≠ .header "X-API-Key") = Place.all.eraseIdx 3 := by
    decide
  rw [extract_eq_findSome?, hfilter]
  simp only [Place.all, List.eraseIdx, List.findSome?_cons, hspelled]
  cases Place.candidate? c ⟨.header "X-Api-Key", .apiKeyHeader⟩ <;> rfl

/-- What is extracted is the first candidate in the order of the places, with the place that it was
found on, and nothing is extracted only where there is none. No place after that one has a say, and
a carrier that folds the case of names needs one spelling of the key header. -/
theorem extract_follows_places (c : Carrier) :
    c.extract = c.candidates.head? ∧
      (c.extract = none ↔ ∀ place ∈ Place.all, place.candidate? c = none) ∧
      (∀ found, c.extract = some found → found.value ≠ "" ∧
        (∀ ch ∈ found.value.toList.head?, Text.isBlank ch = false) ∧
        ∀ ch ∈ found.value.toList.getLast?, Text.isBlank ch = false) ∧
      (∀ other : Carrier,
        (∀ place ∈ c.consulted, other.answer place.probe = c.answer place.probe) →
          other.extract = c.extract) ∧
      (c.FoldsCase →
        (Place.all.filter (·.probe ≠ .header "X-API-Key")).findSome? (·.candidate? c) =
          c.extract) := by
  refine ⟨?_, ?_, ?_, fun other => extract_congr, findSome?_of_foldsCase⟩
  · rw [candidates_eq_presented, extract_eq_head?]
  · rw [extract_eq_findSome?, List.findSome?_eq_none_iff]
  · intro found hfound
    obtain ⟨htrim, hne⟩ := trimmed_of_extract hfound
    have hends := Text.isBlank_ends_trim found.value
    rw [htrim] at hends
    exact ⟨hne, hends⟩

/-- The bearer scheme without a token, then a key in a header whose name is folded. -/
def foldingCarrier (parameter : Option String) : Carrier where
  header name :=
    if Text.asciiLower name = "authorization" then some "Bearer  "
    else if Text.asciiLower name = "x-api-key" then some " tk_gate\t"
    else none
  query name := if name = "key" then parameter else none

/-- The parameter is not looked at, and neither is the second spelling. -/
theorem extract_follows_places_folding :
    (foldingCarrier none).FoldsCase ∧
      (foldingCarrier (some "tk_side")).extract = some ⟨"tk_gate", .apiKeyHeader⟩ ∧
      (Place.all.filter (·.probe ≠ .header "X-API-Key")).findSome?
        (·.candidate? (foldingCarrier none)) = some ⟨"tk_gate", .apiKeyHeader⟩ := by
  have hfolds : (foldingCarrier none).FoldsCase := by
    intro a b hsame
    have hlower : Text.asciiLower a = Text.asciiLower b := beq_iff_eq.mp hsame
    simp only [foldingCarrier, hlower]
  have hextract : (foldingCarrier none).extract = some ⟨"tk_gate", .apiKeyHeader⟩ := by
    decide +kernel
  obtain ⟨-, -, -, hsame, hfold⟩ := extract_follows_places (foldingCarrier none)
  refine ⟨hfolds, ?_, (hfold hfolds).trans hextract⟩
  exact (hsame (foldingCarrier (some "tk_side")) (by decide +kernel)).trans hextract

end Carrier
end Turnstile
