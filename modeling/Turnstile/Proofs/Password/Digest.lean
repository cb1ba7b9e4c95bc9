import Turnstile.Password.Argon2Hasher

/-! Sizes of digests. Compression always leaves eight chained words, so a digest of up to
sixty-four bytes has just the size that it was asked for. -/

namespace Turnstile

theorem LittleEndian.length_bytes (width n : Nat) : (bytes width n).length = width := by
  rw [bytes, List.length_map, List.length_range]

namespace Blake2b

theorem length_compress (chain : List UInt64) (message : Row) (taken : Nat) (last : Bool) :
    (compress chain message taken last).length = 8 := by
  simp only [compress, List.length_map, List.length_range]

theorem length_absorb (chain : List UInt64) (taken : Nat) (message : List UInt8) :
    (absorb chain taken message).length = 8 := by
  fun_induction absorb chain taken message with
  | case1 chain taken message hlong next ih => exact ih
  | case2 chain taken message hshort => exact length_compress _ _ _ _

theorem length_hash {size : Nat} (h : size ≤ 64) (message : List UInt8) :
    (hash size message).length = size := by
  simp only [hash, List.length_take, List.length_flatMap, LittleEndian.length_bytes,
    List.map_const', List.sum_replicate_nat, length_absorb]
  omega

end Blake2b

namespace Argon2

theorem length_longHash {size : Nat} (h : size ≤ 64) (message : List UInt8) :
    (longHash size message).length = size := by
  rw [longHash, if_pos h, Blake2b.length_hash h]

theorem length_tag {x : Input} (h : x.tagSize ≤ 64) : (tag x).length = x.tagSize :=
  length_longHash h _

end Argon2

end Turnstile
