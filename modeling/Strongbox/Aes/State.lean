import Strongbox.Bytes
/-!
# The AES state

A block is a square of bytes, held as four columns of four bytes. A round substitutes the bytes,
shifts the rows and mixes the columns; each of the three steps has an inverse.

## Main definitions

* `Aes.Column`, `Aes.Block`: columns and blocks
* `Block.ofBytes`, `Block.toBytes`: blocks as byte strings
* `Aes.substitute`, `Aes.restore`: the substitution of a byte and its inverse
* `Block.round`, `Block.unround`: the three steps together, and their inverse

## Main results

* `Aes.restore_substitute`, `Aes.substitute_restore`: the substitution is a permutation
-/

namespace Strongbox.Aes

/-- Four bytes. -/
structure Column where
  /-- The byte in the first row. -/
  b0 : UInt8
  /-- The byte in the second row. -/
  b1 : UInt8
  /-- The byte in the third row. -/
  b2 : UInt8
  /-- The byte in the fourth row. -/
  b3 : UInt8
deriving DecidableEq, Repr, Inhabited

/-- Four columns. -/
structure Block where
  /-- The first column. -/
  c0 : Column
  /-- The second column. -/
  c1 : Column
  /-- The third column. -/
  c2 : Column
  /-- The fourth column. -/
  c3 : Column
deriving DecidableEq, Repr, Inhabited

/-- The substitution of each byte, in rows of sixteen. -/
def substitutions : Array (Array UInt8) := #[
  #[0x63, 0x7c, 0x77, 0x7b, 0xf2, 0x6b, 0x6f, 0xc5, 0x30, 0x01, 0x67, 0x2b, 0xfe, 0xd7, 0xab, 0x76],
  #[0xca, 0x82, 0xc9, 0x7d, 0xfa, 0x59, 0x47, 0xf0, 0xad, 0xd4, 0xa2, 0xaf, 0x9c, 0xa4, 0x72, 0xc0],
  #[0xb7, 0xfd, 0x93, 0x26, 0x36, 0x3f, 0xf7, 0xcc, 0x34, 0xa5, 0xe5, 0xf1, 0x71, 0xd8, 0x31, 0x15],
  #[0x04, 0xc7, 0x23, 0xc3, 0x18, 0x96, 0x05, 0x9a, 0x07, 0x12, 0x80, 0xe2, 0xeb, 0x27, 0xb2, 0x75],
  #[0x09, 0x83, 0x2c, 0x1a, 0x1b, 0x6e, 0x5a, 0xa0, 0x52, 0x3b, 0xd6, 0xb3, 0x29, 0xe3, 0x2f, 0x84],
  #[0x53, 0xd1, 0x00, 0xed, 0x20, 0xfc, 0xb1, 0x5b, 0x6a, 0xcb, 0xbe, 0x39, 0x4a, 0x4c, 0x58, 0xcf],
  #[0xd0, 0xef, 0xaa, 0xfb, 0x43, 0x4d, 0x33, 0x85, 0x45, 0xf9, 0x02, 0x7f, 0x50, 0x3c, 0x9f, 0xa8],
  #[0x51, 0xa3, 0x40, 0x8f, 0x92, 0x9d, 0x38, 0xf5, 0xbc, 0xb6, 0xda, 0x21, 0x10, 0xff, 0xf3, 0xd2],
  #[0xcd, 0x0c, 0x13, 0xec, 0x5f, 0x97, 0x44, 0x17, 0xc4, 0xa7, 0x7e, 0x3d, 0x64, 0x5d, 0x19, 0x73],
  #[0x60, 0x81, 0x4f, 0xdc, 0x22, 0x2a, 0x90, 0x88, 0x46, 0xee, 0xb8, 0x14, 0xde, 0x5e, 0x0b, 0xdb],
  #[0xe0, 0x32, 0x3a, 0x0a, 0x49, 0x06, 0x24, 0x5c, 0xc2, 0xd3, 0xac, 0x62, 0x91, 0x95, 0xe4, 0x79],
  #[0xe7, 0xc8, 0x37, 0x6d, 0x8d, 0xd5, 0x4e, 0xa9, 0x6c, 0x56, 0xf4, 0xea, 0x65, 0x7a, 0xae, 0x08],
  #[0xba, 0x78, 0x25, 0x2e, 0x1c, 0xa6, 0xb4, 0xc6, 0xe8, 0xdd, 0x74, 0x1f, 0x4b, 0xbd, 0x8b, 0x8a],
  #[0x70, 0x3e, 0xb5, 0x66, 0x48, 0x03, 0xf6, 0x0e, 0x61, 0x35, 0x57, 0xb9, 0x86, 0xc1, 0x1d, 0x9e],
  #[0xe1, 0xf8, 0x98, 0x11, 0x69, 0xd9, 0x8e, 0x94, 0x9b, 0x1e, 0x87, 0xe9, 0xce, 0x55, 0x28, 0xdf],
  #[0x8c, 0xa1, 0x89, 0x0d, 0xbf, 0xe6, 0x42, 0x68, 0x41, 0x99, 0x2d, 0x0f, 0xb0, 0x54, 0xbb, 0x16]]

/-- The byte each byte is the substitution of, in rows of sixteen. -/
def restorations : Array (Array UInt8) := #[
  #[0x52, 0x09, 0x6a, 0xd5, 0x30, 0x36, 0xa5, 0x38, 0xbf, 0x40, 0xa3, 0x9e, 0x81, 0xf3, 0xd7, 0xfb],
  #[0x7c, 0xe3, 0x39, 0x82, 0x9b, 0x2f, 0xff, 0x87, 0x34, 0x8e, 0x43, 0x44, 0xc4, 0xde, 0xe9, 0xcb],
  #[0x54, 0x7b, 0x94, 0x32, 0xa6, 0xc2, 0x23, 0x3d, 0xee, 0x4c, 0x95, 0x0b, 0x42, 0xfa, 0xc3, 0x4e],
  #[0x08, 0x2e, 0xa1, 0x66, 0x28, 0xd9, 0x24, 0xb2, 0x76, 0x5b, 0xa2, 0x49, 0x6d, 0x8b, 0xd1, 0x25],
  #[0x72, 0xf8, 0xf6, 0x64, 0x86, 0x68, 0x98, 0x16, 0xd4, 0xa4, 0x5c, 0xcc, 0x5d, 0x65, 0xb6, 0x92],
  #[0x6c, 0x70, 0x48, 0x50, 0xfd, 0xed, 0xb9, 0xda, 0x5e, 0x15, 0x46, 0x57, 0xa7, 0x8d, 0x9d, 0x84],
  #[0x90, 0xd8, 0xab, 0x00, 0x8c, 0xbc, 0xd3, 0x0a, 0xf7, 0xe4, 0x58, 0x05, 0xb8, 0xb3, 0x45, 0x06],
  #[0xd0, 0x2c, 0x1e, 0x8f, 0xca, 0x3f, 0x0f, 0x02, 0xc1, 0xaf, 0xbd, 0x03, 0x01, 0x13, 0x8a, 0x6b],
  #[0x3a, 0x91, 0x11, 0x41, 0x4f, 0x67, 0xdc, 0xea, 0x97, 0xf2, 0xcf, 0xce, 0xf0, 0xb4, 0xe6, 0x73],
  #[0x96, 0xac, 0x74, 0x22, 0xe7, 0xad, 0x35, 0x85, 0xe2, 0xf9, 0x37, 0xe8, 0x1c, 0x75, 0xdf, 0x6e],
  #[0x47, 0xf1, 0x1a, 0x71, 0x1d, 0x29, 0xc5, 0x89, 0x6f, 0xb7, 0x62, 0x0e, 0xaa, 0x18, 0xbe, 0x1b],
  #[0xfc, 0x56, 0x3e, 0x4b, 0xc6, 0xd2, 0x79, 0x20, 0x9a, 0xdb, 0xc0, 0xfe, 0x78, 0xcd, 0x5a, 0xf4],
  #[0x1f, 0xdd, 0xa8, 0x33, 0x88, 0x07, 0xc7, 0x31, 0xb1, 0x12, 0x10, 0x59, 0x27, 0x80, 0xec, 0x5f],
  #[0x60, 0x51, 0x7f, 0xa9, 0x19, 0xb5, 0x4a, 0x0d, 0x2d, 0xe5, 0x7a, 0x9f, 0x93, 0xc9, 0x9c, 0xef],
  #[0xa0, 0xe0, 0x3b, 0x4d, 0xae, 0x2a, 0xf5, 0xb0, 0xc8, 0xeb, 0xbb, 0x3c, 0x83, 0x53, 0x99, 0x61],
  #[0x17, 0x2b, 0x04, 0x7e, 0xba, 0x77, 0xd6, 0x26, 0xe1, 0x69, 0x14, 0x63, 0x55, 0x21, 0x0c, 0x7d]]

/-- The entry of a byte in a table with rows of sixteen. -/
def entry (table : Array (Array UInt8)) (b : UInt8) : UInt8 :=
  (table.getD (b.toNat / 16) #[]).getD (b.toNat % 16) 0

/-- The substitution of a byte. -/
def substitute (b : UInt8) : UInt8 := entry substitutions b

/-- The byte that a byte is the substitution of. -/
def restore (b : UInt8) : UInt8 := entry restorations b

/-- No two bytes have the same substitution. -/
theorem restore_substitute (b : UInt8) : restore (substitute b) = b := by
  have h : ∀ i : Fin 256, restore (substitute (UInt8.ofFin i)) = UInt8.ofFin i := by
    decide +kernel
  simpa only [UInt8.ofFin_toFin] using h b.toFin

/-- Every byte is the substitution of one. -/
theorem substitute_restore (b : UInt8) : substitute (restore b) = b := by
  have h : ∀ i : Fin 256, substitute (restore (UInt8.ofFin i)) = UInt8.ofFin i := by
    decide +kernel
  simpa only [UInt8.ofFin_toFin] using h b.toFin

/-- A byte times two, in the field of 256 elements. -/
def double (b : UInt8) : UInt8 := b <<< 1 ^^^ (if b < 0x80 then 0 else 0x1B)

namespace Column

/-- A column with a function applied to each byte. -/
def map (f : UInt8 → UInt8) (c : Column) : Column := ⟨f c.b0, f c.b1, f c.b2, f c.b3⟩

/-- The exclusive or of two columns. -/
def xor (c d : Column) : Column :=
  ⟨c.b0 ^^^ d.b0, c.b1 ^^^ d.b1, c.b2 ^^^ d.b2, c.b3 ^^^ d.b3⟩

/-- Twice the first byte and three times the second, the third and the fourth added. -/
def blend (a b c d : UInt8) : UInt8 := double a ^^^ (double b ^^^ b) ^^^ c ^^^ d

/-- The mixing of a column: each byte is blended with those below it, in a circle. -/
def mix (c : Column) : Column :=
  ⟨blend c.b0 c.b1 c.b2 c.b3, blend c.b1 c.b2 c.b3 c.b0, blend c.b2 c.b3 c.b0 c.b1,
    blend c.b3 c.b0 c.b1 c.b2⟩

/-- Four times the bytes of a row and of the row after next, each added to both. -/
def spread (c : Column) : Column :=
  let even := double (double (c.b0 ^^^ c.b2))
  let odd := double (double (c.b1 ^^^ c.b3))
  ⟨c.b0 ^^^ even, c.b1 ^^^ odd, c.b2 ^^^ even, c.b3 ^^^ odd⟩

/-- The inverse of the mixing. -/
def unmix (c : Column) : Column := c.spread.mix

/-- The column of the first four bytes; bytes that are missing are zero. -/
def ofBytes (data : Bytes) : Column :=
  ⟨data.getD 0 0, data.getD 1 0, data.getD 2 0, data.getD 3 0⟩

/-- The bytes of a column. -/
def toBytes (c : Column) : Bytes := [c.b0, c.b1, c.b2, c.b3]

end Column

namespace Block

/-- A block with a function applied to each column. -/
def map (f : Column → Column) (x : Block) : Block := ⟨f x.c0, f x.c1, f x.c2, f x.c3⟩

/-- The exclusive or of two blocks. -/
def xor (x y : Block) : Block :=
  ⟨x.c0.xor y.c0, x.c1.xor y.c1, x.c2.xor y.c2, x.c3.xor y.c3⟩

/-- The block with its rows shifted to the left, each by one place more than the one above. -/
def shift (x : Block) : Block :=
  ⟨⟨x.c0.b0, x.c1.b1, x.c2.b2, x.c3.b3⟩, ⟨x.c1.b0, x.c2.b1, x.c3.b2, x.c0.b3⟩,
    ⟨x.c2.b0, x.c3.b1, x.c0.b2, x.c1.b3⟩, ⟨x.c3.b0, x.c0.b1, x.c1.b2, x.c2.b3⟩⟩

/-- The block with its rows shifted to the right, each by one place more than the one above. -/
def unshift (x : Block) : Block :=
  ⟨⟨x.c0.b0, x.c3.b1, x.c2.b2, x.c1.b3⟩, ⟨x.c1.b0, x.c0.b1, x.c3.b2, x.c2.b3⟩,
    ⟨x.c2.b0, x.c1.b1, x.c0.b2, x.c3.b3⟩, ⟨x.c3.b0, x.c2.b1, x.c1.b2, x.c0.b3⟩⟩

/-- The block of the first sixteen bytes, column by column; bytes that are missing are zero. -/
def ofBytes (data : Bytes) : Block :=
  ⟨.ofBytes data, .ofBytes (data.drop 4), .ofBytes (data.drop 8), .ofBytes (data.drop 12)⟩

/-- The bytes of a block, column by column. -/
def toBytes (x : Block) : Bytes := x.c0.toBytes ++ x.c1.toBytes ++ x.c2.toBytes ++ x.c3.toBytes

@[simp] theorem length_toBytes (x : Block) : x.toBytes.length = 16 := rfl

/-- Substitutes the bytes and shifts the rows: what the last round does. -/
def scatter (x : Block) : Block := (x.map (.map substitute)).shift

/-- The inverse of `scatter`. -/
def gather (x : Block) : Block := x.unshift.map (.map restore)

/-- What every round but the last does: the columns are mixed as well. -/
def round (x : Block) : Block := x.scatter.map .mix

/-- The inverse of `round`. -/
def unround (x : Block) : Block := (x.map .unmix).gather

end Block

end Strongbox.Aes
