import Strongbox.Digest.Scheme
/-!
# The SHA-2 family

Eight words, big-endian, of 32 or 64 bits. The two word lengths share all but their rotations and
constants, so that one compression function serves them all.

## Main definitions

* `Sha2.Variant`: what tells the word lengths apart
* `Sha2.Chain`, `Sha2.compress`: the chaining value and the compression function
* `Sha2.scheme256`, `Sha2.scheme384`, `Sha2.scheme512`: the schemes
-/

namespace Strongbox.Digest

namespace Sha2

/-- What tells the word lengths apart. -/
structure Variant (W : Type) where
  /-- The length of a word in bytes. -/
  width : Nat
  /-- The word of a number. -/
  ofNat : Nat → W
  /-- The number of a word. -/
  toNat : W → Nat
  /-- The addends of the steps, one a step. -/
  addends : Array W
  /-- Mixes the first word of the chaining value. -/
  upperA : W → W
  /-- Mixes the fifth word of the chaining value. -/
  upperE : W → W
  /-- Mixes the word fifteen back in the schedule. -/
  lowerFar : W → W
  /-- Mixes the word two back in the schedule. -/
  lowerNear : W → W

/-- The chaining value: eight words. -/
structure Chain (W : Type) where
  /-- The first word. -/
  a : W
  /-- The second word. -/
  b : W
  /-- The third word. -/
  c : W
  /-- The fourth word. -/
  d : W
  /-- The fifth word. -/
  e : W
  /-- The sixth word. -/
  f : W
  /-- The seventh word. -/
  g : W
  /-- The eighth word. -/
  h : W
deriving DecidableEq, Repr

section

variable {W : Type} [Inhabited W] [Add W] [AndOp W] [XorOp W] [Complement W]
  (variant : Variant W)

/-- The words of a block. -/
def words (block : Bytes) : Array W :=
  ((Bytes.blocks variant.width block).map fun w => variant.ofNat (Bytes.toNat w.reverse)).toArray

/-- One word more, made of four earlier ones. -/
@[specialize] def extend (schedule : Array W) (t : Nat) : Array W :=
  let back (n : Nat) : W := schedule.getD (t - n) default
  schedule.push (variant.lowerNear (back 2) + back 7 + variant.lowerFar (back 15) + back 16)

/-- The words of the steps, as many as there are addends. -/
@[specialize] def schedule (block : Bytes) : Array W :=
  (List.range' 16 (variant.addends.size - 16)).foldl (extend variant) (words variant block)

/-- Step `t` with the words of a block. -/
@[specialize] def step (schedule : Array W) (x : Chain W) (t : Nat) : Chain W :=
  let choice := (x.e &&& x.f) ^^^ (~~~x.e &&& x.g)
  let majority := (x.a &&& x.b) ^^^ (x.a &&& x.c) ^^^ (x.b &&& x.c)
  let first := x.h + variant.upperE x.e + choice + variant.addends.getD t default +
    schedule.getD t default
  ⟨first + (variant.upperA x.a + majority), x.a, x.b, x.c, x.d + first, x.e, x.f, x.g⟩

/-- The compression function: a step for each addend, and the words added to those before. -/
@[specialize] def compress (x : Chain W) (block : Bytes) : Chain W :=
  let words := schedule variant block
  let y := (List.range variant.addends.size).foldl (step variant words) x
  ⟨x.a + y.a, x.b + y.b, x.c + y.c, x.d + y.d, x.e + y.e, x.f + y.f, x.g + y.g, x.h + y.h⟩

/-- The digest of a chaining value. -/
def output (x : Chain W) : Bytes :=
  [x.a, x.b, x.c, x.d, x.e, x.f, x.g, x.h].flatMap fun w =>
    Bytes.bigEndian variant.width (variant.toNat w)

end

/-- A word of 32 bits rotated to the right. -/
def rotate32 (w n : UInt32) : UInt32 := w >>> n ||| w <<< (32 - n)

/-- A word of 64 bits rotated to the right. -/
def rotate64 (w n : UInt64) : UInt64 := w >>> n ||| w <<< (64 - n)

/-- The variant with words of 32 bits. Its addends are the leading bits of the fractional parts of
the cube roots of the first 64 primes. -/
def variant32 : Variant UInt32 where
  width := 4
  ofNat := Nat.toUInt32
  toNat := UInt32.toNat
  addends := #[
    0x428a2f98, 0x71374491, 0xb5c0fbcf, 0xe9b5dba5, 0x3956c25b, 0x59f111f1, 0x923f82a4, 0xab1c5ed5,
    0xd807aa98, 0x12835b01, 0x243185be, 0x550c7dc3, 0x72be5d74, 0x80deb1fe, 0x9bdc06a7, 0xc19bf174,
    0xe49b69c1, 0xefbe4786, 0x0fc19dc6, 0x240ca1cc, 0x2de92c6f, 0x4a7484aa, 0x5cb0a9dc, 0x76f988da,
    0x983e5152, 0xa831c66d, 0xb00327c8, 0xbf597fc7, 0xc6e00bf3, 0xd5a79147, 0x06ca6351, 0x14292967,
    0x27b70a85, 0x2e1b2138, 0x4d2c6dfc, 0x53380d13, 0x650a7354, 0x766a0abb, 0x81c2c92e, 0x92722c85,
    0xa2bfe8a1, 0xa81a664b, 0xc24b8b70, 0xc76c51a3, 0xd192e819, 0xd6990624, 0xf40e3585, 0x106aa070,
    0x19a4c116, 0x1e376c08, 0x2748774c, 0x34b0bcb5, 0x391c0cb3, 0x4ed8aa4a, 0x5b9cca4f, 0x682e6ff3,
    0x748f82ee, 0x78a5636f, 0x84c87814, 0x8cc70208, 0x90befffa, 0xa4506ceb, 0xbef9a3f7, 0xc67178f2]
  upperA w := rotate32 w 2 ^^^ rotate32 w 13 ^^^ rotate32 w 22
  upperE w := rotate32 w 6 ^^^ rotate32 w 11 ^^^ rotate32 w 25
  lowerFar w := rotate32 w 7 ^^^ rotate32 w 18 ^^^ w >>> 3
  lowerNear w := rotate32 w 17 ^^^ rotate32 w 19 ^^^ w >>> 10

/-- The variant with words of 64 bits. Its addends are the leading bits of the fractional parts of
the cube roots of the first 80 primes. -/
def variant64 : Variant UInt64 where
  width := 8
  ofNat := Nat.toUInt64
  toNat := UInt64.toNat
  addends := #[
    0x428a2f98d728ae22, 0x7137449123ef65cd, 0xb5c0fbcfec4d3b2f, 0xe9b5dba58189dbbc,
    0x3956c25bf348b538, 0x59f111f1b605d019, 0x923f82a4af194f9b, 0xab1c5ed5da6d8118,
    0xd807aa98a3030242, 0x12835b0145706fbe, 0x243185be4ee4b28c, 0x550c7dc3d5ffb4e2,
    0x72be5d74f27b896f, 0x80deb1fe3b1696b1, 0x9bdc06a725c71235, 0xc19bf174cf692694,
    0xe49b69c19ef14ad2, 0xefbe4786384f25e3, 0x0fc19dc68b8cd5b5, 0x240ca1cc77ac9c65,
    0x2de92c6f592b0275, 0x4a7484aa6ea6e483, 0x5cb0a9dcbd41fbd4, 0x76f988da831153b5,
    0x983e5152ee66dfab, 0xa831c66d2db43210, 0xb00327c898fb213f, 0xbf597fc7beef0ee4,
    0xc6e00bf33da88fc2, 0xd5a79147930aa725, 0x06ca6351e003826f, 0x142929670a0e6e70,
    0x27b70a8546d22ffc, 0x2e1b21385c26c926, 0x4d2c6dfc5ac42aed, 0x53380d139d95b3df,
    0x650a73548baf63de, 0x766a0abb3c77b2a8, 0x81c2c92e47edaee6, 0x92722c851482353b,
    0xa2bfe8a14cf10364, 0xa81a664bbc423001, 0xc24b8b70d0f89791, 0xc76c51a30654be30,
    0xd192e819d6ef5218, 0xd69906245565a910, 0xf40e35855771202a, 0x106aa07032bbd1b8,
    0x19a4c116b8d2d0c8, 0x1e376c085141ab53, 0x2748774cdf8eeb99, 0x34b0bcb5e19b48a8,
    0x391c0cb3c5c95a63, 0x4ed8aa4ae3418acb, 0x5b9cca4f7763e373, 0x682e6ff3d6b2b8a3,
    0x748f82ee5defb2fc, 0x78a5636f43172f60, 0x84c87814a1f0ab72, 0x8cc702081a6439ec,
    0x90befffa23631e28, 0xa4506cebde82bde9, 0xbef9a3f7b2c67915, 0xc67178f2e372532b,
    0xca273eceea26619c, 0xd186b8c721c0c207, 0xeada7dd6cde0eb1e, 0xf57d4f7fee6ed178,
    0x06f067aa72176fba, 0x0a637dc5a2c898a6, 0x113f9804bef90dae, 0x1b710b35131c471b,
    0x28db77f523047d84, 0x32caab7b40c72493, 0x3c9ebe0a15c9bebc, 0x431d67c49c100d4c,
    0x4cc5d4becb3e42b6, 0x597f299cfc657e2a, 0x5fcb6fab3ad6faec, 0x6c44198c4a475817]
  upperA w := rotate64 w 28 ^^^ rotate64 w 34 ^^^ rotate64 w 39
  upperE w := rotate64 w 14 ^^^ rotate64 w 18 ^^^ rotate64 w 41
  lowerFar w := rotate64 w 1 ^^^ rotate64 w 8 ^^^ w >>> 7
  lowerNear w := rotate64 w 19 ^^^ rotate64 w 61 ^^^ w >>> 6

/-- The compression function with words of 32 bits. -/
def compress32 (x : Chain UInt32) (block : Bytes) : Chain UInt32 := compress variant32 x block

/-- The compression function with words of 64 bits. -/
def compress64 (x : Chain UInt64) (block : Bytes) : Chain UInt64 := compress variant64 x block

/-- SHA-256, 32 bytes. The first chaining value is made of the square roots of the first eight
primes. -/
def scheme256 : Scheme where
  Chain := Chain UInt32
  initial := ⟨
    0x6a09e667, 0xbb67ae85, 0x3c6ef372, 0xa54ff53a, 0x510e527f, 0x9b05688c, 0x1f83d9ab, 0x5be0cd19⟩
  blockLength := 64
  lengthWidth := 8
  encodeLength := Bytes.bigEndian 8
  compress := compress32
  output := output variant32

/-- SHA-384, 48 bytes: the leading six words of a chaining value that starts with the square roots
of the next eight primes. -/
def scheme384 : Scheme where
  Chain := Chain UInt64
  initial := ⟨
    0xcbbb9d5dc1059ed8, 0x629a292a367cd507, 0x9159015a3070dd17, 0x152fecd8f70e5939,
    0x67332667ffc00b31, 0x8eb44a8768581511, 0xdb0c2e0d64f98fa7, 0x47b5481dbefa4fa4⟩
  blockLength := 128
  lengthWidth := 16
  encodeLength := Bytes.bigEndian 16
  compress := compress64
  output x := (output variant64 x).take 48

/-- SHA-512, 64 bytes. The first chaining value is made of the square roots of the first eight
primes. -/
def scheme512 : Scheme where
  Chain := Chain UInt64
  initial := ⟨
    0x6a09e667f3bcc908, 0xbb67ae8584caa73b, 0x3c6ef372fe94f82b, 0xa54ff53a5f1d36f1,
    0x510e527fade682d1, 0x9b05688c2b3e6c1f, 0x1f83d9abfb41bd6b, 0x5be0cd19137e2179⟩
  blockLength := 128
  lengthWidth := 16
  encodeLength := Bytes.bigEndian 16
  compress := compress64
  output := output variant64

end Sha2

end Strongbox.Digest
