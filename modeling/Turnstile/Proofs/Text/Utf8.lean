import Turnstile.Text.Utf8

/-! What is written as UTF-8 is read back as it was: the head of a written text is its first
character, so the whole text comes back one character at a time. -/

namespace Turnstile.Utf8

variable {c : Char} {cs : List Char} {rest : List UInt8}

theorem toNat_toUInt8 {n : Nat} (h : n < 256) : n.toUInt8.toNat = n := by
  simp [Nat.toUInt8, UInt8.toNat_ofNat', Nat.mod_eq_of_lt h]

theorem isTail_toUInt8 {n : Nat} (h : n < 64) : isTail (0x80 + n).toUInt8 = true := by
  rw [isTail, between, toNat_toUInt8 (by omega)]
  simp
  omega

/-- No character has the number of half a pair. -/
theorem toNat_valid (c : Char) : c.toNat < 0xD800 ∨ 0xDFFF < c.toNat ∧ c.toNat < 0x110000 :=
  c.valid

theorem mayFollow_three (hlow : 0x800 ≤ c.toNat) (hhigh : c.toNat < 0x10000) :
    mayFollow (0xE0 + c.toNat / 4096).toUInt8 (0x80 + c.toNat / 64 % 64).toUInt8 = true := by
  have hvalid := toNat_valid c
  unfold mayFollow
  rw [toNat_toUInt8 (by omega)]
  split
  · rw [between, toNat_toUInt8 (by omega)]
    simp
    omega
  · rw [between, toNat_toUInt8 (by omega)]
    simp
    omega
  · omega
  · omega
  · exact isTail_toUInt8 (by omega)

theorem mayFollow_four (hlow : 0x10000 ≤ c.toNat) :
    mayFollow (0xF0 + c.toNat / 262144).toUInt8 (0x80 + c.toNat / 4096 % 64).toUInt8 = true := by
  have hvalid := toNat_valid c
  unfold mayFollow
  rw [toNat_toUInt8 (by omega)]
  split
  · omega
  · omega
  · rw [between, toNat_toUInt8 (by omega)]
    simp
    omega
  · rw [between, toNat_toUInt8 (by omega)]
    simp
    omega
  · exact isTail_toUInt8 (by omega)

/-- The head of a written character is the character. -/
theorem next_encodeChar (c : Char) (rest : List UInt8) :
    next (encodeChar c ++ rest) = some (.char c rest) := by
  have hvalid := toNat_valid c
  unfold encodeChar
  simp only
  split
  · rename_i hone
    simp only [List.cons_append, List.nil_append, next]
    rw [toNat_toUInt8 (by omega), if_pos hone, Char.ofNat_toNat]
  · split
    · simp only [List.cons_append, List.nil_append, next]
      rw [toNat_toUInt8 (by omega), if_neg (by omega), if_neg (by omega), if_pos (by omega)]
      simp only [readTwo]
      rw [if_pos (isTail_toUInt8 (by omega)), toNat_toUInt8 (by omega)]
      have hvalue : (0xC0 + c.toNat / 64 - 0xC0) * 64 + (0x80 + c.toNat % 64 - 0x80) = c.toNat := by
        omega
      rw [hvalue, Char.ofNat_toNat]
    · split
      · simp only [List.cons_append, List.nil_append, next]
        rw [toNat_toUInt8 (by omega), if_neg (by omega), if_neg (by omega), if_neg (by omega),
          if_pos (by omega)]
        simp only [readThree]
        rw [if_pos (mayFollow_three (by omega) (by omega)), if_pos (isTail_toUInt8 (by omega)),
          toNat_toUInt8 (by omega), toNat_toUInt8 (by omega), toNat_toUInt8 (by omega)]
        have hvalue : (0xE0 + c.toNat / 4096 - 0xE0) * 4096 +
            (0x80 + c.toNat / 64 % 64 - 0x80) * 64 + (0x80 + c.toNat % 64 - 0x80) = c.toNat := by
          omega
        rw [hvalue, Char.ofNat_toNat]
      · simp only [List.cons_append, List.nil_append, next]
        rw [toNat_toUInt8 (by omega), if_neg (by omega), if_neg (by omega), if_neg (by omega),
          if_neg (by omega), if_pos (by omega)]
        simp only [readFour]
        rw [if_pos (mayFollow_four (by omega)), if_pos (isTail_toUInt8 (by omega)),
          if_pos (isTail_toUInt8 (by omega)), toNat_toUInt8 (by omega), toNat_toUInt8 (by omega),
          toNat_toUInt8 (by omega), toNat_toUInt8 (by omega)]
        have hvalue : (0xF0 + c.toNat / 262144 - 0xF0) * 262144 +
            (0x80 + c.toNat / 4096 % 64 - 0x80) * 4096 + (0x80 + c.toNat / 64 % 64 - 0x80) * 64 +
              (0x80 + c.toNat % 64 - 0x80) = c.toNat := by
          omega
        rw [hvalue, Char.ofNat_toNat]

theorem encodeChar_ne_nil (c : Char) : encodeChar c ≠ [] := by
  unfold encodeChar
  simp only
  repeat' split
  all_goals exact List.cons_ne_nil _ _

theorem encodeList_cons : encodeList (c :: cs) = encodeChar c ++ encodeList cs := rfl

theorem encodeList_append {ds : List Char} :
    encodeList (cs ++ ds) = encodeList cs ++ encodeList ds := List.flatMap_append

theorem decodeSteps_encodeList {steps : Nat} {seen : List Char}
    (h : (encodeList cs).length ≤ steps) :
    decodeSteps steps (encodeList cs) seen = some (seen.reverse ++ cs) := by
  induction cs generalizing steps seen with
  | nil =>
    cases steps with
    | zero => simp [decodeSteps]
    | succ steps => simp [decodeSteps, encodeList, next]
  | cons c cs ih =>
    have hpos := List.length_pos_iff.mpr (encodeChar_ne_nil c)
    rw [encodeList_cons, List.length_append] at h
    obtain ⟨steps, rfl⟩ : ∃ k, steps = k + 1 := ⟨steps - 1, by omega⟩
    rw [encodeList_cons, decodeSteps, next_encodeChar]
    simp only
    rw [ih (by omega), List.reverse_cons, List.append_assoc]
    rfl

/-- A written text spells itself. -/
theorem decode?_encodeList (cs : List Char) :
    decode? (encodeList cs) = some (String.ofList cs) := by
  rw [decode?, decodeSteps_encodeList (Nat.le_refl _)]
  rfl

theorem decodeLossySteps_of_decodeSteps {steps : Nat} {bytes : List UInt8} {seen : List Char}
    (h : decodeSteps steps bytes seen = some cs) :
    decodeLossySteps steps bytes seen = cs := by
  induction steps generalizing bytes seen with
  | zero => exact Option.some.inj h
  | succ steps ih =>
    rw [decodeSteps] at h
    rw [decodeLossySteps]
    cases hnext : next bytes with
    | none =>
      rw [hnext] at h
      exact Option.some.inj h
    | some head =>
      rw [hnext] at h
      cases head with
      | char c rest => exact ih h
      | broken rest => cases h

theorem decodeLossy_encode (s : String) : decodeLossy (encode s) = s := by
  rw [decodeLossy, encode, decodeLossySteps_of_decodeSteps
    (decodeSteps_encodeList (Nat.le_refl _))]
  exact String.ofList_toList

end Turnstile.Utf8
