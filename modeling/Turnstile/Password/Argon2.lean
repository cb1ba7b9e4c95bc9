import Turnstile.Password.Blake2b

/-! The memory-hard function Argon2. A matrix of blocks, one row for each lane, is filled in passes
of four slices; every block is mixed from its predecessor and from another block, whose place
comes from the data or from a counter. The last column gives the tag. -/

namespace Turnstile.Argon2

/-! ## Parameters -/

/-- Where the places of the other blocks come from: the data, a counter, or a counter in the first
half of the first pass and then the data. -/
inductive Variant where
  | d
  | i
  | id
deriving DecidableEq

namespace Variant

def number : Variant → Nat
  | d => 0
  | i => 1
  | id => 2

def name : Variant → String
  | d => "argon2d"
  | i => "argon2i"
  | id => "argon2id"

def ofName? (s : String) : Option Variant := [d, i, id].find? (·.name == s)

end Variant

/-- In the earlier version later passes overwrite blocks, in the later one they are combined with
what they held. -/
inductive Version where
  | early
  | late
deriving DecidableEq

namespace Version

def number : Version → Nat
  | early => 16
  | late => 19

def ofNumber? (n : Nat) : Option Version := [early, late].find? (·.number == n)

end Version

/-- Memory in units of 1024 bytes, passes, and lanes. -/
structure Cost where
  memory : Nat
  passes : Nat
  lanes : Nat
deriving DecidableEq

inductive CostFault where
  | memoryTooSmall
  | passesTooFew
  | lanesTooFew
  | lanesTooMany
deriving DecidableEq

namespace Cost

def laneBound : Nat := 0xFFFFFF

/-- The first rule that is broken decides. -/
def check (c : Cost) : Except CostFault Unit :=
  if c.memory < 8 ∨ c.memory < 8 * c.lanes then .error .memoryTooSmall
  else if c.passes < 1 then .error .passesTooFew
  else if c.lanes < 1 then .error .lanesTooFew
  else if laneBound < c.lanes then .error .lanesTooMany
  else .ok ()

/-- Blocks of a lane between two meetings of the lanes. -/
def segment (c : Cost) : Nat := c.memory / (4 * c.lanes)

def laneLength (c : Cost) : Nat := 4 * c.segment

def blocks (c : Cost) : Nat := c.lanes * c.laneLength

end Cost

structure Input where
  variant : Variant
  version : Version
  cost : Cost
  password : List UInt8
  salt : List UInt8
  /-- Further data that goes into the tag. -/
  data : List UInt8
  tagSize : Nat

/-! ## Blocks -/

/-- 1024 bytes. -/
structure Block where
  r0 : Row
  r1 : Row
  r2 : Row
  r3 : Row
  r4 : Row
  r5 : Row
  r6 : Row
  r7 : Row

namespace Block

def zero : Block := ⟨.zero, .zero, .zero, .zero, .zero, .zero, .zero, .zero⟩

def row (b : Block) : Nat → Row
  | 0 => b.r0
  | 1 => b.r1
  | 2 => b.r2
  | 3 => b.r3
  | 4 => b.r4
  | 5 => b.r5
  | 6 => b.r6
  | _ => b.r7

def word (b : Block) (i : Nat) : UInt64 := (b.row (i / 16)).word (i % 16)

def xor (a b : Block) : Block :=
  ⟨a.r0.xor b.r0, a.r1.xor b.r1, a.r2.xor b.r2, a.r3.xor b.r3, a.r4.xor b.r4, a.r5.xor b.r5,
    a.r6.xor b.r6, a.r7.xor b.r7⟩

@[inline] def map (f : Row → Row) (b : Block) : Block :=
  ⟨f b.r0, f b.r1, f b.r2, f b.r3, f b.r4, f b.r5, f b.r6, f b.r7⟩

def ofBytes (bs : List UInt8) : Block :=
  let row (i : Nat) := LittleEndian.row (bs.drop (128 * i))
  ⟨row 0, row 1, row 2, row 3, row 4, row 5, row 6, row 7⟩

def bytes (b : Block) : List UInt8 :=
  (List.range 8).flatMap fun i => LittleEndian.rowBytes (b.row i)

/-- Words in pairs, and the block as a square of eight by eight pairs: its other reading. -/
def transpose (b : Block) : Block :=
  let ⟨p, q, r, s, t, u, v, w⟩ := b
  ⟨⟨p.w0, p.w1, q.w0, q.w1, r.w0, r.w1, s.w0, s.w1, t.w0, t.w1, u.w0, u.w1, v.w0, v.w1, w.w0, w.w1⟩,
    ⟨p.w2, p.w3, q.w2, q.w3, r.w2, r.w3, s.w2, s.w3, t.w2, t.w3, u.w2, u.w3,
      v.w2, v.w3, w.w2, w.w3⟩,
    ⟨p.w4, p.w5, q.w4, q.w5, r.w4, r.w5, s.w4, s.w5, t.w4, t.w5, u.w4, u.w5,
      v.w4, v.w5, w.w4, w.w5⟩,
    ⟨p.w6, p.w7, q.w6, q.w7, r.w6, r.w7, s.w6, s.w7, t.w6, t.w7, u.w6, u.w7,
      v.w6, v.w7, w.w6, w.w7⟩,
    ⟨p.w8, p.w9, q.w8, q.w9, r.w8, r.w9, s.w8, s.w9, t.w8, t.w9, u.w8, u.w9,
      v.w8, v.w9, w.w8, w.w9⟩,
    ⟨p.w10, p.w11, q.w10, q.w11, r.w10, r.w11, s.w10, s.w11, t.w10, t.w11, u.w10, u.w11,
      v.w10, v.w11, w.w10, w.w11⟩,
    ⟨p.w12, p.w13, q.w12, q.w13, r.w12, r.w13, s.w12, s.w13, t.w12, t.w13, u.w12, u.w13,
      v.w12, v.w13, w.w12, w.w13⟩,
    ⟨p.w14, p.w15, q.w14, q.w15, r.w14, r.w15, s.w14, s.w15, t.w14, t.w15, u.w14, u.w15,
      v.w14, v.w15, w.w14, w.w15⟩⟩

/-- The sum of two words and twice the product of their lower halves. -/
@[inline] def blend (x y : UInt64) : UInt64 :=
  x + y + 2 * (x &&& 0xFFFFFFFF) * (y &&& 0xFFFFFFFF)

@[inline] def mixFour (q : Row.Quad) : Row.Quad :=
  let a := blend q.a q.b
  let d := Row.rotateRight (q.d ^^^ a) 32
  let c := blend q.c d
  let b := Row.rotateRight (q.b ^^^ c) 24
  let a := blend a b
  let d := Row.rotateRight (d ^^^ a) 16
  let c := blend c d
  let b := Row.rotateRight (b ^^^ c) 63
  ⟨a, b, c, d⟩

def mixRow (r : Row) : Row := r.round fun _ => mixFour

/-- Mixes rows and then columns of the combined blocks, and combines once more. -/
def compress (x y : Block) : Block :=
  let both := x.xor y
  let mixed := (((both.map mixRow).transpose).map mixRow).transpose
  mixed.xor both

end Block

/-! ## Long digests -/

/-- The digests after the first, each of the one before; all but the last give half their bytes. -/
def chainDigests : Nat → Nat → List UInt8 → List UInt8
  | 0, last, v => v.take 32 ++ Blake2b.hash last v
  | more + 1, last, v => v.take 32 ++ chainDigests more last (Blake2b.hash 64 v)

/-- A digest of any size. -/
def longHash (size : Nat) (message : List UInt8) : List UInt8 :=
  let message := LittleEndian.bytes 4 size ++ message
  if size ≤ 64 then Blake2b.hash size message
  else
    let count := (size + 31) / 32 - 2
    chainDigests (count - 1) (size - 32 * count) (Blake2b.hash 64 message)

/-- The digest of everything that was given. -/
def seed (x : Input) : List UInt8 :=
  let sized (bs : List UInt8) := LittleEndian.bytes 4 bs.length ++ bs
  Blake2b.hash 64 ([x.cost.lanes, x.tagSize, x.cost.memory, x.cost.passes, x.version.number,
    x.variant.number].flatMap (LittleEndian.bytes 4) ++
    sized x.password ++ sized x.salt ++ sized [] ++ sized x.data)

/-! ## Filling -/

/-- Where the filling is: in which pass, slice and lane. -/
structure Place where
  pass : Nat
  slice : Nat
  lane : Nat

/-- Whether places come from the counter here. -/
def Place.counted (p : Place) : Variant → Bool
  | .d => false
  | .i => true
  | .id => p.pass == 0 && p.slice < 2

/-- The block of 128 places that belongs to a count. -/
def addresses (x : Input) (p : Place) (count : Nat) : Block :=
  let word (n : Nat) := n.toUInt64
  let first : Row := ⟨word p.pass, word p.lane, word p.slice, word x.cost.blocks,
    word x.cost.passes, word x.variant.number, word count, 0, 0, 0, 0, 0, 0, 0, 0, 0⟩
  Block.compress .zero (Block.compress .zero { Block.zero with r0 := first })

/-- How many blocks of a lane may be referred to from place `index` of the segment. -/
def reachable (x : Input) (p : Place) (index : Nat) (sameLane : Bool) : Nat :=
  let whole := if p.pass == 0 then p.slice * x.cost.segment
    else x.cost.laneLength - x.cost.segment
  if sameLane then whole + index - 1 else if index == 0 then whole - 1 else whole

/-- The place in the matrix that a random word refers to; recent blocks are more likely. -/
def reference (x : Input) (p : Place) (index : Nat) (random : UInt64) : Nat :=
  let lane := if p.pass == 0 && p.slice == 0 then p.lane
    else (random >>> 32).toNat % x.cost.lanes
  let area := reachable x p index (lane == p.lane)
  let low := (random &&& 0xFFFFFFFF).toNat
  let back := area * (low * low / UInt32.size) / UInt32.size
  let start := if p.pass == 0 || p.slice == 3 then 0 else (p.slice + 1) * x.cost.segment
  lane * x.cost.laneLength + (start + area - 1 - back) % x.cost.laneLength

/-- Fills the block at place `index` of a segment. `places` are the counted ones, if they apply. -/
def fillBlock (x : Input) (p : Place) (index : Nat) (places : Block) (matrix : Array Block) :
    Array Block :=
  let column := p.slice * x.cost.segment + index
  let before := if column == 0 then x.cost.laneLength - 1 else column - 1
  let base := p.lane * x.cost.laneLength
  let previous := matrix.getD (base + before) .zero
  let random := if p.counted x.variant then places.word (index % 128) else previous.r0.w0
  let other := matrix.getD (reference x p index random) .zero
  let mixed := Block.compress previous other
  let at' := base + column
  let filled :=
    if p.pass == 0 || x.version == .early then mixed
    else mixed.xor (matrix.getD at' .zero)
  matrix.setIfInBounds at' filled

/-- Fills `todo` blocks of a segment from `index` on. -/
def fillFrom (x : Input) (p : Place) : Nat → Nat → Block → Array Block → Array Block
  | 0, _, _, matrix => matrix
  | todo + 1, index, places, matrix =>
    let places :=
      if p.counted x.variant && index % 128 == 0 then addresses x p (index / 128 + 1) else places
    fillFrom x p todo (index + 1) places (fillBlock x p index places matrix)

/-- The first two blocks of each lane are given. -/
def fillSegment (x : Input) (matrix : Array Block) (p : Place) : Array Block :=
  let first := if p.pass == 0 && p.slice == 0 then 2 else 0
  let places := if first == 2 && p.counted x.variant then addresses x p 1 else .zero
  fillFrom x p (x.cost.segment - first) first places matrix

/-- Every place of the filling, in order. -/
def order (c : Cost) : List Place :=
  (List.range c.passes).flatMap fun pass =>
    (List.range 4).flatMap fun slice =>
      (List.range c.lanes).map fun lane => ⟨pass, slice, lane⟩

/-- The matrix with the first two blocks of each lane. -/
def begin (x : Input) : Array Block :=
  let seed := seed x
  let given (lane column : Nat) : Block := .ofBytes
    (longHash 1024 (seed ++ LittleEndian.bytes 4 column ++ LittleEndian.bytes 4 lane))
  (List.range x.cost.lanes).foldl (fun matrix lane =>
    let base := lane * x.cost.laneLength
    (matrix.setIfInBounds base (given lane 0)).setIfInBounds (base + 1) (given lane 1))
    (Array.replicate x.cost.blocks .zero)

/-- The last blocks of all lanes combined. -/
def lastColumn (c : Cost) (matrix : Array Block) : Block :=
  (List.range c.lanes).foldl (fun acc lane =>
    acc.xor (matrix.getD (lane * c.laneLength + c.laneLength - 1) .zero)) .zero

def tag (x : Input) : List UInt8 :=
  let matrix := (order x.cost).foldl (fillSegment x) (begin x)
  longHash x.tagSize (lastColumn x.cost matrix).bytes

end Turnstile.Argon2
