/-! Rows of sixteen 64-bit words: the state and the message block of the hash function, and the
unit on which blocks of the memory-hard function are mixed. -/

namespace Turnstile

structure Row where
  w0 : UInt64
  w1 : UInt64
  w2 : UInt64
  w3 : UInt64
  w4 : UInt64
  w5 : UInt64
  w6 : UInt64
  w7 : UInt64
  w8 : UInt64
  w9 : UInt64
  w10 : UInt64
  w11 : UInt64
  w12 : UInt64
  w13 : UInt64
  w14 : UInt64
  w15 : UInt64
deriving DecidableEq

namespace Row

def zero : Row := ⟨0, 0, 0, 0, 0, 0, 0, 0, 0, 0, 0, 0, 0, 0, 0, 0⟩

/-- The word at a place below sixteen. -/
def word (r : Row) : Nat → UInt64
  | 0 => r.w0
  | 1 => r.w1
  | 2 => r.w2
  | 3 => r.w3
  | 4 => r.w4
  | 5 => r.w5
  | 6 => r.w6
  | 7 => r.w7
  | 8 => r.w8
  | 9 => r.w9
  | 10 => r.w10
  | 11 => r.w11
  | 12 => r.w12
  | 13 => r.w13
  | 14 => r.w14
  | _ => r.w15

def xor (a b : Row) : Row :=
  ⟨a.w0 ^^^ b.w0, a.w1 ^^^ b.w1, a.w2 ^^^ b.w2, a.w3 ^^^ b.w3,
     a.w4 ^^^ b.w4, a.w5 ^^^ b.w5, a.w6 ^^^ b.w6, a.w7 ^^^ b.w7,
     a.w8 ^^^ b.w8, a.w9 ^^^ b.w9, a.w10 ^^^ b.w10, a.w11 ^^^ b.w11,
     a.w12 ^^^ b.w12, a.w13 ^^^ b.w13, a.w14 ^^^ b.w14, a.w15 ^^^ b.w15⟩

/-! ## Mixing four words -/

/-- Four words of a row. -/
structure Quad where
  a : UInt64
  b : UInt64
  c : UInt64
  d : UInt64

@[inline] def rotateRight (x n : UInt64) : UInt64 := (x >>> n) ||| (x <<< (64 - n))

/-- A mixing of four words, as it stands at each place of a round. -/
abbrev Mixer := Nat → Quad → Quad

/-- Mixes the columns and then the diagonals of the row, read as four rows of four words. The mixer
is told which of the eight places it is at. -/
@[inline] def round (mix : Mixer) (r : Row) : Row :=
  let c0 := mix 0 ⟨r.w0, r.w4, r.w8, r.w12⟩
  let c1 := mix 1 ⟨r.w1, r.w5, r.w9, r.w13⟩
  let c2 := mix 2 ⟨r.w2, r.w6, r.w10, r.w14⟩
  let c3 := mix 3 ⟨r.w3, r.w7, r.w11, r.w15⟩
  let d0 := mix 4 ⟨c0.a, c1.b, c2.c, c3.d⟩
  let d1 := mix 5 ⟨c1.a, c2.b, c3.c, c0.d⟩
  let d2 := mix 6 ⟨c2.a, c3.b, c0.c, c1.d⟩
  let d3 := mix 7 ⟨c3.a, c0.b, c1.c, c2.d⟩
  ⟨d0.a, d1.a, d2.a, d3.a, d3.b, d0.b, d1.b, d2.b,
    d2.c, d3.c, d0.c, d1.c, d1.d, d2.d, d3.d, d0.d⟩

end Row

/-! ## Little-endian bytes -/

namespace LittleEndian

def bytes (width : Nat) (n : Nat) : List UInt8 :=
  (List.range width).map fun i => (n / Nat.pow 256 i).toUInt8

def nat (bs : List UInt8) : Nat := bs.foldr (fun b n => b.toNat + 256 * n) 0

/-- The words of the bytes, eight for a word, zeros where they end early. -/
def words : Nat → List UInt8 → List UInt64
  | 0, _ => []
  | count + 1, bs => (nat (bs.take 8)).toUInt64 :: words count (bs.drop 8)

def row (bs : List UInt8) : Row :=
  match words 16 bs with
  | [a, b, c, d, e, f, g, h, i, j, k, l, m, n, o, p] =>
    ⟨a, b, c, d, e, f, g, h, i, j, k, l, m, n, o, p⟩
  | _ => .zero

def rowBytes (r : Row) : List UInt8 :=
  (List.range 16).flatMap fun i => bytes 8 (r.word i).toNat

end LittleEndian

end Turnstile
