import Turnstile.Json.Token
import Turnstile.Json.Value
import Turnstile.Proofs.Text.Decimal
import Turnstile.Proofs.Text.Utf8

/-! Numbers and strings as they are written, read back as tokens. A number is read to the end of its
digits, so something that continues no number has to follow; a string ends at its quote, since
every quote and every control character in it is escaped. -/

namespace Turnstile.Json.Token

open Utf8 (encodeChar encodeList)

variable {c : Char} {cs : List Char} {rest tail seen : List UInt8} {n : Nat}

theorem encodeChar_ascii (h : c.toNat < 0x80) : encodeChar c = [c.toNat.toUInt8] := by
  rw [encodeChar]
  exact if_pos h

/-! ## Numbers -/

/-- What continues no number. -/
def Closed (rest : List UInt8) : Prop :=
  ∀ b, rest.head? = some b → isDigit b = false ∧ b ≠ 0x2E ∧ b ≠ 0x65 ∧ b ≠ 0x45

theorem isDigit_toUInt8 (h : c.isDigit = true) : c.toNat < 0x80 ∧
    isDigit c.toNat.toUInt8 = true ∧ c.toNat.toUInt8.toNat = c.toNat := by
  have hbounds : 48 ≤ c.toNat ∧ c.toNat ≤ 57 := Char.isDigit_iff_toNat.mp h
  have hnat : c.toNat.toUInt8.toNat = c.toNat := Utf8.toNat_toUInt8 (by omega)
  refine ⟨by omega, ?_, hnat⟩
  rw [isDigit, Bool.and_eq_true, decide_eq_true_eq, decide_eq_true_eq, UInt8.le_iff_toNat_le,
    UInt8.le_iff_toNat_le, hnat]
  exact hbounds

theorem readDigits_encodeList (start count : Nat) (hcs : ∀ c ∈ cs, c.isDigit = true)
    (hrest : Closed rest) :
    readDigits start count (encodeList cs ++ rest) =
      (Nat.ofDigitChars 10 cs start, count + cs.length, rest) := by
  induction cs generalizing start count with
  | nil =>
    cases rest with
    | nil => rfl
    | cons b rest =>
      have hno := (hrest b rfl).1
      simp [encodeList, readDigits, hno]
  | cons c cs ih =>
    obtain ⟨hascii, hdigit, hnat⟩ := isDigit_toUInt8 (hcs c List.mem_cons_self)
    rw [Utf8.encodeList_cons, encodeChar_ascii hascii, List.cons_append, List.nil_append,
      List.cons_append, readDigits, if_pos hdigit, hnat, ih _ _ (List.forall_mem_cons.mp hcs).2,
      Nat.ofDigitChars_cons, List.length_cons, Nat.mul_comm start 10]
    have hcount : count + 1 + cs.length = count + (cs.length + 1) := by omega
    rw [hcount]
    rfl

theorem readWhole_of_digits (hcs : ∀ c ∈ cs, c.isDigit = true) (hne : cs ≠ [])
    (hhead : cs.head? ≠ some '0') (hrest : Closed rest) :
    readWhole (encodeList cs ++ rest) = some (Nat.ofDigitChars 10 cs 0, rest) := by
  have hread := readDigits_encodeList 0 0 hcs hrest
  obtain ⟨c, cs, rfl⟩ := List.exists_cons_of_ne_nil hne
  obtain ⟨hascii, -, hnat⟩ := isDigit_toUInt8 (hcs c List.mem_cons_self)
  unfold readWhole
  split
  · rename_i hzero
    rw [Utf8.encodeList_cons, encodeChar_ascii hascii] at hzero
    have hbyte : c.toNat.toUInt8 = 0x30 := (List.cons.inj hzero).1
    rw [hbyte] at hnat
    have hc : c = '0' := Char.ext (UInt32.toNat_inj.mp hnat.symm)
    exact absurd (by rw [hc]; rfl) hhead
  · rw [hread]
    simp

theorem readWhole_toDigits (hrest : Closed rest) :
    readWhole (encodeList (Nat.toDigits 10 n) ++ rest) = some (n, rest) := by
  rcases Nat.eq_zero_or_pos n with rfl | hpos
  · have hhead : rest.head?.any isDigit = false := by
      cases rest with
      | nil => rfl
      | cons b rest => exact (hrest b rfl).1
    change readWhole (0x30 :: rest) = _
    rw [readWhole, hhead]
    rfl
  · rw [readWhole_of_digits (fun c => Decimal.isDigit_toDigits) Nat.toDigits_ne_nil
      (Decimal.head?_toDigits hpos) hrest, Nat.ofDigitChars_ten_toDigits]

theorem readFraction_closed (hrest : Closed rest) : readFraction n rest = some (n, none, rest) := by
  unfold readFraction
  split
  · exact absurd rfl (hrest _ rfl).2.1
  · rfl

theorem readExponent_closed (hrest : Closed rest) : readExponent rest = some (none, rest) := by
  cases rest with
  | nil => rfl
  | cons b rest =>
    obtain ⟨-, -, hsmall, hlarge⟩ := hrest b rfl
    rw [readExponent, if_neg (not_or.mpr ⟨hsmall, hlarge⟩)]

theorem encodeList_toDigits (n : Nat) :
    ∃ b bytes, encodeList (Nat.toDigits 10 n) = b :: bytes ∧ isDigit b = true := by
  obtain ⟨c, cs, hdigits⟩ := List.exists_cons_of_ne_nil (Nat.toDigits_ne_nil (b := 10) (n := n))
  have hc : c ∈ Nat.toDigits 10 n := by rw [hdigits]; exact List.mem_cons_self
  obtain ⟨hascii, hdigit, -⟩ := isDigit_toUInt8 (Decimal.isDigit_toDigits hc)
  rw [hdigits, Utf8.encodeList_cons, encodeChar_ascii hascii]
  exact ⟨_, _, rfl, hdigit⟩

theorem readUnsigned_toDigits (hrest : Closed rest) :
    readUnsigned false (encodeList (Nat.toDigits 10 n) ++ rest) = some (.ofNat n, rest) := by
  simp only [readUnsigned, readWhole_toDigits hrest, readFraction_closed hrest,
    readExponent_closed hrest, bind, Option.bind]
  rfl

/-- A count is read as it was written. -/
theorem readOne_toDigits (hrest : Closed rest) :
    readOne (encodeList (Nat.toDigits 10 n) ++ rest) = some (.num (.ofNat n), rest) := by
  have hread := readUnsigned_toDigits (n := n) hrest
  obtain ⟨b, bytes, hbytes, hdigit⟩ := encodeList_toDigits n
  rw [hbytes, List.cons_append] at hread ⊢
  have hnumber : readNumber (b :: (bytes ++ rest)) = some (.ofNat n, rest) := by
    unfold readNumber
    split
    · rename_i heq
      rw [(List.cons.inj heq).1] at hdigit
      exact absurd hdigit (by decide)
    · exact hread
  unfold readOne
  split
  case h_12 => rw [hnumber]; rfl
  all_goals
    rename_i heq
    cases heq
  all_goals exact absurd hdigit (by decide)

/-! ## Strings -/

/-- A byte that stands for itself in a string. -/
def Plain (b : UInt8) : Prop := ¬ b < 0x20 ∧ b ≠ 0x22 ∧ b ≠ 0x5C

theorem readContent_plain {bytes : List UInt8} {steps : Nat} (h : ∀ b ∈ bytes, Plain b) :
    readContent (bytes.length + steps) true seen (bytes ++ tail) =
      readContent steps true (bytes.reverse ++ seen) tail := by
  induction bytes generalizing seen with
  | nil => rw [List.length_nil, Nat.zero_add]; rfl
  | cons b bytes ih =>
    obtain ⟨⟨hlow, hquote, hslash⟩, hbytes⟩ := List.forall_mem_cons.mp h
    have hsteps : (b :: bytes).length + steps = (bytes.length + steps) + 1 := by
      rw [List.length_cons]
      omega
    rw [hsteps, List.cons_append, readContent, if_neg (not_or.mpr ⟨hlow, hslash⟩), ih hbytes,
      List.reverse_cons, List.append_assoc]
    · rfl
    · exact hquote
    · intro _ hb
      exact absurd hb hslash
    · intro _ _ hb
      exact absurd hb hslash

theorem plain_of_toNat {b : UInt8} (hlow : 0x20 ≤ b.toNat) (hquote : b.toNat ≠ 0x22)
    (hslash : b.toNat ≠ 0x5C) : Plain b := by
  refine ⟨?_, ?_, ?_⟩
  · rw [UInt8.lt_iff_toNat_lt]
    exact Nat.not_lt.mpr hlow
  · intro hb
    exact hquote (by rw [hb]; rfl)
  · intro hb
    exact hslash (by rw [hb]; rfl)

theorem plain_toUInt8 (h : 0x80 ≤ n) (hbyte : n < 0x100) : Plain n.toUInt8 := by
  have hnat := Utf8.toNat_toUInt8 hbyte
  exact plain_of_toNat (by omega) (by omega) (by omega)

theorem plain_encodeChar (hlow : 0x20 ≤ c.toNat) (hquote : c ≠ '"') (hslash : c ≠ '\\') :
    ∀ b ∈ encodeChar c, Plain b := by
  have hvalid := Utf8.toNat_valid c
  by_cases hascii : c.toNat < 0x80
  · have hnat : c.toNat.toUInt8.toNat = c.toNat := Utf8.toNat_toUInt8 (by omega)
    rw [encodeChar_ascii hascii, List.forall_mem_singleton]
    refine plain_of_toNat (by omega) ?_ ?_
    · intro hb
      rw [hnat] at hb
      exact hquote (Char.ext (UInt32.toNat_inj.mp hb))
    · intro hb
      rw [hnat] at hb
      exact hslash (Char.ext (UInt32.toNat_inj.mp hb))
  · unfold encodeChar
    simp only [if_neg hascii]
    split
    · simp only [List.forall_mem_cons, List.not_mem_nil, false_implies, implies_true, and_true]
      exact ⟨plain_toUInt8 (by omega) (by omega), plain_toUInt8 (by omega) (by omega)⟩
    · split
      · simp only [List.forall_mem_cons, List.not_mem_nil, false_implies, implies_true, and_true]
        exact ⟨plain_toUInt8 (by omega) (by omega), plain_toUInt8 (by omega) (by omega),
          plain_toUInt8 (by omega) (by omega)⟩
      · simp only [List.forall_mem_cons, List.not_mem_nil, false_implies, implies_true, and_true]
        exact ⟨plain_toUInt8 (by omega) (by omega), plain_toUInt8 (by omega) (by omega),
          plain_toUInt8 (by omega) (by omega), plain_toUInt8 (by omega) (by omega)⟩

/-- The two digits that spell a control character. -/
theorem pair?_lowerHexDigit : ∀ n, n < 32 →
    (Text.lowerHexDigit (n / 16)).toNat < 0x80 ∧ (Text.lowerHexDigit (n % 16)).toNat < 0x80 ∧
      Percent.pair? (Text.lowerHexDigit (n / 16)).toNat.toUInt8
        (Text.lowerHexDigit (n % 16)).toNat.toUInt8 = some n.toUInt8 := by
  decide

theorem readNumbered_control (h : c.toNat < 0x20) :
    readNumbered (encodeList ['0', '0', Text.lowerHexDigit (c.toNat / 16),
      Text.lowerHexDigit (c.toNat % 16)] ++ tail) = some (some (encodeChar c), tail) := by
  obtain ⟨hhigh, hlow, hpair⟩ := pair?_lowerHexDigit c.toNat h
  have hzero : Percent.pair? 0x30 0x30 = some 0 := by decide
  have hbytes : encodeList ['0', '0', Text.lowerHexDigit (c.toNat / 16),
      Text.lowerHexDigit (c.toNat % 16)] = [0x30, 0x30,
        (Text.lowerHexDigit (c.toNat / 16)).toNat.toUInt8,
        (Text.lowerHexDigit (c.toNat % 16)).toNat.toUInt8] := by
    simp only [Utf8.encodeList_cons, encodeChar_ascii hhigh, encodeChar_ascii hlow]
    rfl
  have hnat : c.toNat.toUInt8.toNat = c.toNat := Utf8.toNat_toUInt8 (by omega)
  have hunit : readUnit (0x30 :: 0x30 :: (Text.lowerHexDigit (c.toNat / 16)).toNat.toUInt8 ::
      (Text.lowerHexDigit (c.toNat % 16)).toNat.toUInt8 :: tail) = some (c.toNat, tail) := by
    simp only [readUnit, hzero, hpair, bind, Option.bind, hnat]
    simp [pure]
  rw [hbytes]
  simp only [List.cons_append, List.nil_append, readNumbered, hunit, bind, Option.bind]
  have hhalf : isHighHalf c.toNat = false := by simp [isHighHalf]; omega
  have hhalf' : isLowHalf c.toNat = false := by simp [isLowHalf]; omega
  simp [hhalf, hhalf', Char.ofNat_toNat]

/-- An escaped character is read as the character. -/
theorem readContent_escapeChar (seen : List UInt8) {steps : Nat}
    (h : (encodeList (escapeChar c)).length + tail.length ≤ steps) :
    ∃ left, tail.length ≤ left ∧ readContent steps true seen (encodeList (escapeChar c) ++ tail) =
      readContent left true ((encodeChar c).reverse ++ seen) tail := by
  have hshort (letter b : UInt8) (hbytes : encodeList (escapeChar c) = [0x5C, letter])
      (hletter : letter ≠ 0x75) (hb : shortEscape? letter = some b) (hc : encodeChar c = [b]) :
      ∃ left, tail.length ≤ left ∧
        readContent steps true seen (encodeList (escapeChar c) ++ tail) =
          readContent left true ((encodeChar c).reverse ++ seen) tail := by
    rw [hbytes] at h ⊢
    rw [List.length_cons, List.length_singleton] at h
    obtain ⟨left, rfl⟩ : ∃ left, steps = left + 1 := ⟨steps - 1, by omega⟩
    refine ⟨left, by omega, ?_⟩
    rw [List.cons_append, List.cons_append, List.nil_append, readContent, hb, hc]
    · rfl
    · exact hletter
  by_cases hquote : c = '"'
  · subst hquote
    exact hshort 0x22 0x22 rfl (by decide) rfl rfl
  by_cases hslash : c = '\\'
  · subst hslash
    exact hshort 0x5C 0x5C rfl (by decide) rfl rfl
  by_cases hline : c = '\n'
  · subst hline
    exact hshort 0x6E 0x0A rfl (by decide) rfl rfl
  by_cases hreturn : c = '\r'
  · subst hreturn
    exact hshort 0x72 0x0D rfl (by decide) rfl rfl
  by_cases htab : c = '\t'
  · subst htab
    exact hshort 0x74 0x09 rfl (by decide) rfl rfl
  by_cases hback : c = '\x08'
  · subst hback
    exact hshort 0x62 0x08 rfl (by decide) rfl rfl
  by_cases hfeed : c = '\x0C'
  · subst hfeed
    exact hshort 0x66 0x0C rfl (by decide) rfl rfl
  by_cases hcontrol : c.toNat < 0x20
  · have hescape : escapeChar c = ['\\', 'u'] ++ ['0', '0',
        Text.lowerHexDigit (c.toNat / 16), Text.lowerHexDigit (c.toNat % 16)] := by
      simp [escapeChar, hquote, hslash, hline, hreturn, htab, hback, hfeed, hcontrol]
    have hstart : encodeList ['\\', 'u'] = [0x5C, 0x75] := rfl
    rw [hescape, Utf8.encodeList_append, hstart] at h ⊢
    rw [List.length_append, List.length_cons, List.length_singleton] at h
    obtain ⟨left, rfl⟩ : ∃ left, steps = left + 1 := ⟨steps - 1, by omega⟩
    refine ⟨left, by omega, ?_⟩
    rw [List.append_assoc, List.cons_append, List.cons_append, List.nil_append, readContent,
      readNumbered_control hcontrol]
  · have hescape : escapeChar c = [c] := by
      simp [escapeChar, hquote, hslash, hline, hreturn, htab, hback, hfeed, hcontrol]
    have hbytes : encodeList [c] = encodeChar c := List.append_nil _
    rw [hescape, hbytes] at h ⊢
    obtain ⟨left, rfl⟩ : ∃ left, steps = (encodeChar c).length + left :=
      ⟨steps - (encodeChar c).length, by omega⟩
    exact ⟨left, by omega, readContent_plain (plain_encodeChar (by omega) hquote hslash)⟩

theorem readContent_escaped {steps : Nat}
    (h : (encodeList (cs.flatMap escapeChar)).length + (rest.length + 1) ≤ steps) :
    readContent steps true seen (encodeList (cs.flatMap escapeChar) ++ 0x22 :: rest) =
      some (Utf8.decode? (seen.reverse ++ encodeList cs), rest) := by
  induction cs generalizing steps seen with
  | nil =>
    obtain ⟨left, rfl⟩ : ∃ left, steps = left + 1 := ⟨steps - 1, by omega⟩
    simp [encodeList, readContent]
  | cons c cs ih =>
    rw [List.flatMap_cons, Utf8.encodeList_append, List.length_append] at h
    rw [List.flatMap_cons, Utf8.encodeList_append, List.append_assoc]
    have hsteps : (encodeList (escapeChar c)).length +
        (encodeList (cs.flatMap escapeChar) ++ 0x22 :: rest).length ≤ steps := by
      rw [List.length_append, List.length_cons]
      omega
    obtain ⟨left, hleft, hread⟩ := readContent_escapeChar seen hsteps
    rw [List.length_append, List.length_cons] at hleft
    rw [hread, ih hleft, Utf8.encodeList_cons, List.reverse_append, List.reverse_reverse,
      List.append_assoc]

/-- A string is read as it was written. -/
theorem readOne_quote (s : String) :
    readOne (encodeList (quote s) ++ rest) = some (.str (some s), rest) := by
  have hbytes : encodeList (quote s) ++ rest =
      0x22 :: (encodeList (s.toList.flatMap escapeChar) ++ 0x22 :: rest) := by
    rw [quote, Utf8.encodeList_cons, Utf8.encodeList_append]
    simp only [List.append_assoc]
    rfl
  have hcontent : readString (encodeList (s.toList.flatMap escapeChar) ++ 0x22 :: rest) =
      some (some s, rest) := by
    have hlength : (encodeList (s.toList.flatMap escapeChar)).length + (rest.length + 1) =
        (encodeList (s.toList.flatMap escapeChar) ++ 0x22 :: rest).length := by
      rw [List.length_append, List.length_cons]
    rw [readString, readContent_escaped (Nat.le_of_eq hlength), List.reverse_nil, List.nil_append,
      Utf8.decode?_encodeList, String.ofList_toList]
  rw [hbytes, readOne, hcontent]
  rfl

end Turnstile.Json.Token
