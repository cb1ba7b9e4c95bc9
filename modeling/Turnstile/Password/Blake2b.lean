import Turnstile.Password.Row

/-! The hash function BLAKE2b without a key: blocks of 128 bytes are compressed one after the other,
the last one padded with zeros and marked. -/

namespace Turnstile.Blake2b

def blockBytes : Nat := 128

/-- The starting words, which also stand in the lower half of each compression. -/
def start : List UInt64 :=
  [0x6a09e667f3bcc908, 0xbb67ae8584caa73b, 0x3c6ef372fe94f82b, 0xa54ff53a5f1d36f1,
   0x510e527fade682d1, 0x9b05688c2b3e6c1f, 0x1f83d9abfb41bd6b, 0x5be0cd19137e2179]

/-- The order in which each of the twelve rounds takes the words of the message. -/
def schedule : List (List Nat) :=
  [[0, 1, 2, 3, 4, 5, 6, 7, 8, 9, 10, 11, 12, 13, 14, 15],
   [14, 10, 4, 8, 9, 15, 13, 6, 1, 12, 0, 2, 11, 7, 5, 3],
   [11, 8, 12, 0, 5, 2, 15, 13, 10, 14, 3, 6, 7, 1, 9, 4],
   [7, 9, 3, 1, 13, 12, 11, 14, 2, 6, 5, 10, 4, 0, 15, 8],
   [9, 0, 5, 7, 2, 4, 10, 15, 14, 1, 11, 12, 6, 8, 3, 13],
   [2, 12, 6, 10, 0, 11, 8, 3, 4, 13, 7, 5, 15, 14, 1, 9],
   [12, 5, 1, 15, 14, 13, 4, 10, 0, 7, 6, 3, 9, 2, 8, 11],
   [13, 11, 7, 14, 12, 1, 3, 9, 5, 0, 15, 4, 8, 6, 2, 10],
   [6, 15, 14, 9, 11, 3, 0, 8, 12, 2, 13, 7, 1, 4, 10, 5],
   [10, 2, 8, 4, 7, 6, 1, 5, 15, 11, 9, 14, 3, 12, 13, 0],
   [0, 1, 2, 3, 4, 5, 6, 7, 8, 9, 10, 11, 12, 13, 14, 15],
   [14, 10, 4, 8, 9, 15, 13, 6, 1, 12, 0, 2, 11, 7, 5, 3]]

/-! ## Compression -/

@[inline] def mixTwo (x y : UInt64) (q : Row.Quad) : Row.Quad :=
  let a := q.a + q.b + x
  let d := Row.rotateRight (q.d ^^^ a) 32
  let c := q.c + d
  let b := Row.rotateRight (q.b ^^^ c) 24
  let a := a + b + y
  let d := Row.rotateRight (d ^^^ a) 16
  let c := c + d
  let b := Row.rotateRight (b ^^^ c) 63
  ⟨a, b, c, d⟩

def round (message : Row) (order : List Nat) (r : Row) : Row :=
  r.round fun place => mixTwo (message.word (order.getD (2 * place) 0))
    (message.word (order.getD (2 * place + 1) 0))

/-- The chained words after a block; `taken` counts the bytes so far. -/
def compress (chain : List UInt64) (message : Row) (taken : Nat) (last : Bool) : List UInt64 :=
  let low (i : Nat) := chain.getD i 0
  let high (i : Nat) := start.getD i 0
  let mark : UInt64 := if last then 0xFFFFFFFFFFFFFFFF else 0
  let state : Row := ⟨low 0, low 1, low 2, low 3, low 4, low 5, low 6, low 7,
    high 0, high 1, high 2, high 3,
    high 4 ^^^ taken.toUInt64, high 5 ^^^ (taken / UInt64.size).toUInt64,
    high 6 ^^^ mark, high 7⟩
  let mixed := schedule.foldl (fun r order => round message order r) state
  (List.range 8).map fun i => low i ^^^ mixed.word i ^^^ mixed.word (i + 8)

/-! ## Whole messages -/

/-- Every block but the last; the last may be full, and is empty only for the empty message. -/
def absorb (chain : List UInt64) (taken : Nat) (message : List UInt8) : List UInt64 :=
  if blockBytes < message.length then
    let taken := taken + blockBytes
    absorb (compress chain (LittleEndian.row (message.take blockBytes)) taken false) taken
      (message.drop blockBytes)
  else compress chain (LittleEndian.row message) (taken + message.length) true
termination_by message.length
decreasing_by simp only [List.length_drop, blockBytes] at *; omega

/-- The digest of at most 64 bytes. -/
def hash (size : Nat) (message : List UInt8) : List UInt8 :=
  let chain := match start with
    | first :: rest => (first ^^^ 0x01010000 ^^^ size.toUInt64) :: rest
    | [] => []
  ((absorb chain 0 message).flatMap fun w => LittleEndian.bytes 8 w.toNat).take size

end Turnstile.Blake2b
