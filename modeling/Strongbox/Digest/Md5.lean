import Strongbox.Digest.Scheme
/-!
# MD5

Four words of 32 bits, little-endian, and 64 steps in four rounds.

## Main definitions

* `Md5.Chain`, `Md5.compress`: the chaining value and the compression function
* `Md5.scheme`: the scheme
-/

namespace Strongbox.Digest

namespace Md5

/-- The chaining value: four words. -/
structure Chain where
  /-- The first word. -/
  a : UInt32
  /-- The second word. -/
  b : UInt32
  /-- The third word. -/
  c : UInt32
  /-- The fourth word. -/
  d : UInt32
deriving DecidableEq, Repr

/-- The chaining value in front of the first block. -/
def initial : Chain := ⟨0x67452301, 0xefcdab89, 0x98badcfe, 0x10325476⟩

/-- The addends of the 64 steps: the sines of 1 to 64 times `2 ^ 32`, cut to whole numbers. -/
def addends : Array UInt32 := #[
  0xd76aa478, 0xe8c7b756, 0x242070db, 0xc1bdceee, 0xf57c0faf, 0x4787c62a, 0xa8304613, 0xfd469501,
  0x698098d8, 0x8b44f7af, 0xffff5bb1, 0x895cd7be, 0x6b901122, 0xfd987193, 0xa679438e, 0x49b40821,
  0xf61e2562, 0xc040b340, 0x265e5a51, 0xe9b6c7aa, 0xd62f105d, 0x02441453, 0xd8a1e681, 0xe7d3fbc8,
  0x21e1cde6, 0xc33707d6, 0xf4d50d87, 0x455a14ed, 0xa9e3e905, 0xfcefa3f8, 0x676f02d9, 0x8d2a4c8a,
  0xfffa3942, 0x8771f681, 0x6d9d6122, 0xfde5380c, 0xa4beea44, 0x4bdecfa9, 0xf6bb4b60, 0xbebfbc70,
  0x289b7ec6, 0xeaa127fa, 0xd4ef3085, 0x04881d05, 0xd9d4d039, 0xe6db99e5, 0x1fa27cf8, 0xc4ac5665,
  0xf4292244, 0x432aff97, 0xab9423a7, 0xfc93a039, 0x655b59c3, 0x8f0ccc92, 0xffeff47d, 0x85845dd1,
  0x6fa87e4f, 0xfe2ce6e0, 0xa3014314, 0x4e0811a1, 0xf7537e82, 0xbd3af235, 0x2ad7d2bb, 0xeb86d391]

/-- The rotations of the steps: four in turn in each round. -/
def rotations : Array UInt32 := #[7, 12, 17, 22, 5, 9, 14, 20, 4, 11, 16, 23, 6, 10, 15, 21]

/-- A word rotated to the left. -/
def rotate (w n : UInt32) : UInt32 := w <<< n ||| w >>> (32 - n)

/-- The word of the block that step `t` uses. -/
def wordIndex (t : Nat) : Nat :=
  if t < 16 then t
  else if t < 32 then (5 * t + 1) % 16
  else if t < 48 then (3 * t + 5) % 16
  else 7 * t % 16

/-- The mixing function of the round that step `t` is in. -/
def mix (t : Nat) (b c d : UInt32) : UInt32 :=
  if t < 16 then (b &&& c) ||| (~~~b &&& d)
  else if t < 32 then (d &&& b) ||| (~~~d &&& c)
  else if t < 48 then b ^^^ c ^^^ d
  else c ^^^ (b ||| ~~~d)

/-- Step `t` with the words of a block. -/
def step (words : Array UInt32) (chain : Chain) (t : Nat) : Chain :=
  let sum := chain.a + mix t chain.b chain.c chain.d + addends.getD t 0 +
    words.getD (wordIndex t) 0
  ⟨chain.d, chain.b + rotate sum (rotations.getD (t / 16 * 4 + t % 4) 0), chain.b, chain.c⟩

/-- The words of a block. -/
def words (block : Bytes) : Array UInt32 :=
  ((Bytes.blocks 4 block).map fun w => (Bytes.toNat w).toUInt32).toArray

/-- The compression function: 64 steps, and the words added to those before. -/
def compress (chain : Chain) (block : Bytes) : Chain :=
  let last := (List.range 64).foldl (step (words block)) chain
  ⟨chain.a + last.a, chain.b + last.b, chain.c + last.c, chain.d + last.d⟩

/-- The digest of a chaining value. -/
def output (chain : Chain) : Bytes :=
  [chain.a, chain.b, chain.c, chain.d].flatMap fun w => Bytes.littleEndian 4 w.toNat

/-- MD5, 16 bytes. -/
def scheme : Scheme where
  Chain := Chain
  initial := initial
  blockLength := 64
  lengthWidth := 8
  encodeLength := Bytes.littleEndian 8
  compress := compress
  output := output

end Md5

end Strongbox.Digest
