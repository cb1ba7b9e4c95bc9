import Turnstile.Text.Base64

/-! Base64 as it is written and read back. The digits of a byte list are those of its sextets, six
bits each with zeros at the end, and the sextets give the bytes back. -/

namespace Turnstile.Base64

variable {n : Nat} {ns : List Nat} {a : UInt8} {c : Char}

/-! ## Digits -/

theorem value?_digit (h : n < 64) : value? (digit n) = some n := by
  have hall : ∀ n < 64, value? (digit n) = some n := by decide
  exact hall n h

theorem mapM_value?_digits (h : ∀ n ∈ ns, n < 64) : (ns.map digit).mapM value? = some ns := by
  induction ns with
  | nil => rfl
  | cons n rest ih =>
    rw [List.forall_mem_cons] at h
    rw [List.map_cons, List.mapM_cons, value?_digit h.1, ih h.2]
    rfl

/-! ## Sextets -/

/-- Three bytes as four numbers below sixty-four; one or two bytes left over as two or three. -/
def sextets : List UInt8 → List Nat
  | [] => []
  | [a] => [a.toNat / 4, a.toNat % 4 * 16]
  | [a, b] => [a.toNat / 4, a.toNat % 4 * 16 + b.toNat / 16, b.toNat % 16 * 4]
  | a :: b :: c :: rest =>
    a.toNat / 4 :: (a.toNat % 4 * 16 + b.toNat / 16) :: (b.toNat % 16 * 4 + c.toNat / 64) ::
      (c.toNat % 64) :: sextets rest

theorem encode_eq_map (bs : List UInt8) : encode bs = (sextets bs).map digit := by
  fun_induction encode bs with
  | case1 | case2 | case3 => rfl
  | case4 a b c rest ih => simp only [sextets, List.map_cons, ih]

theorem sextets_lt (bs : List UInt8) : ∀ n ∈ sextets bs, n < 64 := by
  fun_induction sextets bs with
  | case1 => exact nofun
  | case2 a =>
    have ha := a.toNat_lt
    simp only [List.mem_cons, List.not_mem_nil, or_false]
    omega
  | case3 a b =>
    have ha := a.toNat_lt
    have hb := b.toNat_lt
    simp only [List.mem_cons, List.not_mem_nil, or_false]
    omega
  | case4 a b c rest ih =>
    have ha := a.toNat_lt
    have hb := b.toNat_lt
    have hc := c.toNat_lt
    simp only [List.mem_cons]
    rintro n (hn | hn | hn | hn | hn)
    · omega
    · omega
    · omega
    · omega
    · exact ih n hn

theorem toUInt8_eq (h : n = a.toNat) : n.toUInt8 = a := by
  rw [h]
  exact UInt8.ofNat_toNat

theorem decodeValues_sextets (bs : List UInt8) : decodeValues (sextets bs) = some bs := by
  fun_induction sextets bs with
  | case1 => rfl
  | case2 a =>
    have ha := a.toNat_lt
    rw [decodeValues, if_pos (by omega), toUInt8_eq (a := a) (by omega)]
  | case3 a b =>
    have ha := a.toNat_lt
    have hb := b.toNat_lt
    rw [decodeValues, if_pos (by omega), toUInt8_eq (a := a) (by omega),
      toUInt8_eq (a := b) (by omega)]
  | case4 a b c rest ih =>
    have ha := a.toNat_lt
    have hb := b.toNat_lt
    have hc := c.toNat_lt
    rw [decodeValues, ih, Option.map_some, toUInt8_eq (a := a) (by omega),
      toUInt8_eq (a := b) (by omega), toUInt8_eq (a := c) (by omega)]

/-! ## Texts -/

@[simp] theorem decode?_encode (bs : List UInt8) : decode? (encode bs) = some bs := by
  rw [decode?, encode_eq_map, mapM_value?_digits (sextets_lt bs), Option.bind_some,
    decodeValues_sextets]

/-- What is no digit does not stand in a written list of bytes. -/
theorem not_mem_encode (h : value? c = none) (bs : List UInt8) : c ∉ encode bs := by
  rw [encode_eq_map]
  intro hmem
  obtain ⟨n, hn, rfl⟩ := List.mem_map.mp hmem
  rw [value?_digit (sextets_lt bs n hn)] at h
  cases h

theorem length_encode (bs : List UInt8) : (encode bs).length = (4 * bs.length + 2) / 3 := by
  fun_induction encode bs with
  | case1 | case2 | case3 => simp
  | case4 a b c rest ih =>
    simp only [List.length_cons, ih]
    omega

end Turnstile.Base64
