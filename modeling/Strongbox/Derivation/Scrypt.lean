import Strongbox.Derivation.Pbkdf2
/-!
# Memory-hard derivation

The password and the salt are spread over independent lanes. Each lane is mixed as often as the
cost says while a table takes down all its states, and as often again while it is combined with
states of the table that the lane itself picks. The key is derived from the password and the mixed
lanes.

## Main definitions

* `Scrypt.Block`, `Scrypt.scramble`: a block of sixteen words and its scrambling
* `Scrypt.mix`: one mixing of a lane
* `Scrypt.table`, `Scrypt.walk`: the two halves of the work on a lane
* `Scrypt.fill`: the key
-/

namespace Strongbox.Scrypt

/-- A block: sixteen words of 32 bits. -/
structure Block where
  /-- Word 0. -/
  w0 : UInt32
  /-- Word 1. -/
  w1 : UInt32
  /-- Word 2. -/
  w2 : UInt32
  /-- Word 3. -/
  w3 : UInt32
  /-- Word 4. -/
  w4 : UInt32
  /-- Word 5. -/
  w5 : UInt32
  /-- Word 6. -/
  w6 : UInt32
  /-- Word 7. -/
  w7 : UInt32
  /-- Word 8. -/
  w8 : UInt32
  /-- Word 9. -/
  w9 : UInt32
  /-- Word 10. -/
  w10 : UInt32
  /-- Word 11. -/
  w11 : UInt32
  /-- Word 12. -/
  w12 : UInt32
  /-- Word 13. -/
  w13 : UInt32
  /-- Word 14. -/
  w14 : UInt32
  /-- Word 15. -/
  w15 : UInt32
deriving DecidableEq, Repr, Inhabited

namespace Block

/-- The words of a block. -/
def toList (x : Block) : List UInt32 :=
  [x.w0, x.w1, x.w2, x.w3, x.w4, x.w5, x.w6, x.w7, x.w8, x.w9, x.w10, x.w11, x.w12, x.w13, x.w14,
    x.w15]

/-- The block of sixteen words; words that are missing are zero. -/
def ofList (words : List UInt32) : Block :=
  let word (i : Nat) : UInt32 := words.getD i 0
  ⟨word 0, word 1, word 2, word 3, word 4, word 5, word 6, word 7, word 8, word 9, word 10,
    word 11, word 12, word 13, word 14, word 15⟩

/-- The block of 64 bytes. -/
def ofBytes (data : Bytes) : Block :=
  ofList ((Bytes.blocks 4 data).map fun w => (Bytes.toNat w).toUInt32)

/-- The bytes of a block. -/
def toBytes (x : Block) : Bytes := x.toList.flatMap fun w => Bytes.littleEndian 4 w.toNat

/-- Two blocks combined word by word. -/
@[specialize] def combine (f : UInt32 → UInt32 → UInt32) (x y : Block) : Block :=
  ⟨f x.w0 y.w0, f x.w1 y.w1, f x.w2 y.w2, f x.w3 y.w3, f x.w4 y.w4, f x.w5 y.w5, f x.w6 y.w6,
    f x.w7 y.w7, f x.w8 y.w8, f x.w9 y.w9, f x.w10 y.w10, f x.w11 y.w11, f x.w12 y.w12,
    f x.w13 y.w13, f x.w14 y.w14, f x.w15 y.w15⟩

/-- The exclusive or of two blocks. -/
def xor (x y : Block) : Block := combine (· ^^^ ·) x y

/-- The sum of two blocks. -/
def add (x y : Block) : Block := combine (· + ·) x y

end Block

/-- A word rotated to the left. -/
@[inline] def rotate (w n : UInt32) : UInt32 := w <<< n ||| w >>> (32 - n)

/-- Four words, each changed by the two before it. -/
@[inline] def quarter (a b c d : UInt32) : UInt32 × UInt32 × UInt32 × UInt32 :=
  let b := b ^^^ rotate (a + d) 7
  let c := c ^^^ rotate (b + a) 9
  let d := d ^^^ rotate (c + b) 13
  let a := a ^^^ rotate (d + c) 18
  (a, b, c, d)

/-- One round over the columns of the square of words and one over its rows. -/
def doubleRound (x : Block) : Block :=
  let (x0, x4, x8, x12) := quarter x.w0 x.w4 x.w8 x.w12
  let (x5, x9, x13, x1) := quarter x.w5 x.w9 x.w13 x.w1
  let (x10, x14, x2, x6) := quarter x.w10 x.w14 x.w2 x.w6
  let (x15, x3, x7, x11) := quarter x.w15 x.w3 x.w7 x.w11
  let (x0, x1, x2, x3) := quarter x0 x1 x2 x3
  let (x5, x6, x7, x4) := quarter x5 x6 x7 x4
  let (x10, x11, x8, x9) := quarter x10 x11 x8 x9
  let (x15, x12, x13, x14) := quarter x15 x12 x13 x14
  ⟨x0, x1, x2, x3, x4, x5, x6, x7, x8, x9, x10, x11, x12, x13, x14, x15⟩

/-- Scrambles a block: eight rounds, and the block added to what they make. -/
def scramble (x : Block) : Block :=
  x.add (doubleRound (doubleRound (doubleRound (doubleRound x))))

/-- Scrambles the blocks of a lane one after another, each with the one before it. -/
def scrambleFrom (last : Block) : List Block → List Block
  | [] => []
  | x :: lane =>
    let next := scramble (last.xor x)
    next :: scrambleFrom next lane

/-- The blocks at even and at odd places. -/
def deal : List Block → List Block × List Block
  | [] => ([], [])
  | [x] => ([x], [])
  | x :: y :: lane =>
    let (evens, odds) := deal lane
    (x :: evens, y :: odds)

/-- One mixing of a lane: its blocks are scrambled one after another, the first with the last,
and those at even places put in front of those at odd ones. -/
def mix (lane : List Block) : List Block :=
  let (evens, odds) := deal (scrambleFrom (lane.getLastD default) lane)
  evens ++ odds

/-- Mixes a lane, taking down each state before it is mixed. -/
def table : (rounds : Nat) → (lane : List Block) → Array (List Block) →
    Array (List Block) × List Block
  | 0, lane, states => (states, lane)
  | rounds + 1, lane, states => table rounds (mix lane) (states.push lane)

/-- The place in the table that a lane picks: the first word of its last block. -/
def pick (lane : List Block) : Nat := (lane.getLastD default).w0.toNat

/-- Mixes a lane, each time combined with the state it picks from the table. -/
def walk (states : Array (List Block)) : (rounds : Nat) → (lane : List Block) → List Block
  | 0, lane => lane
  | rounds + 1, lane =>
    walk states rounds
      (mix (List.zipWith Block.xor lane (states.getD (pick lane % states.size) [])))

/-- The work on a lane. -/
def work (cost : Nat) (lane : Bytes) : Bytes :=
  let (states, last) := table cost ((Bytes.blocks 64 lane).map .ofBytes) #[]
  (walk states cost last).flatMap Block.toBytes

/-- The key of `length` bytes. -/
def fill (cost blockSize parallelization : Nat) (password salt : Bytes) (length : Nat) : Bytes :=
  let lanes := Pbkdf2.fill .sha256 1 password salt (128 * blockSize * parallelization)
  let mixed := (Bytes.blocks (128 * blockSize) lanes).flatMap (work cost)
  Pbkdf2.fill .sha256 1 password mixed length

end Strongbox.Scrypt
