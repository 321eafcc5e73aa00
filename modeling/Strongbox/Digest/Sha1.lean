import Strongbox.Digest.Scheme
/-!
# SHA-1

Five words of 32 bits, big-endian, and 80 steps in four rounds.

## Main definitions

* `Sha1.Chain`, `Sha1.compress`: the chaining value and the compression function
* `Sha1.scheme`: the scheme
-/

namespace Strongbox.Digest

namespace Sha1

/-- The chaining value: five words. -/
structure Chain where
  /-- The first word. -/
  a : UInt32
  /-- The second word. -/
  b : UInt32
  /-- The third word. -/
  c : UInt32
  /-- The fourth word. -/
  d : UInt32
  /-- The fifth word. -/
  e : UInt32
deriving DecidableEq, Repr

/-- The chaining value in front of the first block. -/
def initial : Chain := ⟨0x67452301, 0xefcdab89, 0x98badcfe, 0x10325476, 0xc3d2e1f0⟩

/-- A word rotated to the left. -/
def rotate (w n : UInt32) : UInt32 := w <<< n ||| w >>> (32 - n)

/-- The words of a block. -/
def words (block : Bytes) : Array UInt32 :=
  ((Bytes.blocks 4 block).map fun w => (Bytes.toNat w.reverse).toUInt32).toArray

/-- One word more: the exclusive or of four earlier ones, rotated. -/
def extend (schedule : Array UInt32) (t : Nat) : Array UInt32 :=
  schedule.push <| rotate
    (schedule.getD (t - 3) 0 ^^^ schedule.getD (t - 8) 0 ^^^ schedule.getD (t - 14) 0 ^^^
      schedule.getD (t - 16) 0) 1

/-- The 80 words of the steps. -/
def schedule (block : Bytes) : Array UInt32 := (List.range' 16 64).foldl extend (words block)

/-- The addend of the round that step `t` is in. -/
def addend (t : Nat) : UInt32 :=
  if t < 20 then 0x5a827999
  else if t < 40 then 0x6ed9eba1
  else if t < 60 then 0x8f1bbcdc
  else 0xca62c1d6

/-- The mixing function of the round that step `t` is in. -/
def mix (t : Nat) (b c d : UInt32) : UInt32 :=
  if t < 20 then (b &&& c) ||| (~~~b &&& d)
  else if t < 40 then b ^^^ c ^^^ d
  else if t < 60 then (b &&& c) ||| (b &&& d) ||| (c &&& d)
  else b ^^^ c ^^^ d

/-- Step `t` with the words of a block. -/
def step (schedule : Array UInt32) (chain : Chain) (t : Nat) : Chain :=
  ⟨rotate chain.a 5 + mix t chain.b chain.c chain.d + chain.e + addend t + schedule.getD t 0,
    chain.a, rotate chain.b 30, chain.c, chain.d⟩

/-- The compression function: 80 steps, and the words added to those before. -/
def compress (chain : Chain) (block : Bytes) : Chain :=
  let last := (List.range 80).foldl (step (schedule block)) chain
  ⟨chain.a + last.a, chain.b + last.b, chain.c + last.c, chain.d + last.d, chain.e + last.e⟩

/-- The digest of a chaining value. -/
def output (chain : Chain) : Bytes :=
  [chain.a, chain.b, chain.c, chain.d, chain.e].flatMap fun w => Bytes.bigEndian 4 w.toNat

/-- SHA-1, 20 bytes. -/
def scheme : Scheme where
  Chain := Chain
  initial := initial
  blockLength := 64
  lengthWidth := 8
  encodeLength := Bytes.bigEndian 8
  compress := compress
  output := output

end Sha1

end Strongbox.Digest
