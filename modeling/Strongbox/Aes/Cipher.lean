import Strongbox.Aes.State
/-!
# The AES block cipher

A block is encrypted in ten, twelve or fourteen rounds, depending on the length of the key. The key
is expanded to one block more than there are rounds: one in front of the first round, and one after
each.

## Main definitions

* `Aes.KeySize`: the lengths a key can have
* `Aes.RoundKeys`, `RoundKeys.expand`: a key expanded
* `RoundKeys.encrypt`, `RoundKeys.decrypt`: the cipher on a block and its inverse
-/

namespace Strongbox.Aes

/-- The lengths a key can have. -/
inductive KeySize where
  /-- 16 bytes. -/
  | aes128
  /-- 24 bytes. -/
  | aes192
  /-- 32 bytes. -/
  | aes256
deriving DecidableEq, Repr

namespace KeySize

/-- The key sizes. -/
def all : List KeySize := [.aes128, .aes192, .aes256]

/-- The length of a key in columns of four bytes. -/
def columns : KeySize → Nat
  | .aes128 => 4
  | .aes192 => 6
  | .aes256 => 8

/-- The length of a key in bytes. -/
def keyLength (size : KeySize) : Nat := 4 * size.columns

/-- The number of rounds. -/
def rounds (size : KeySize) : Nat := size.columns + 6

/-- The size of a key of the given length in bytes. -/
def ofKeyLength? (length : Nat) : Option KeySize := all.find? (·.keyLength = length)

/-- What is shown of a key size. -/
def describe : KeySize → String
  | .aes128 => "Aes128"
  | .aes192 => "Aes192"
  | .aes256 => "Aes256"

end KeySize

/-- The bytes of a column moved up by one place, in a circle. -/
def Column.rotate (c : Column) : Column := ⟨c.b1, c.b2, c.b3, c.b0⟩

/-- The constant that goes into the key each time it was used up: a power of two in the field. -/
def roundConstant (n : Nat) : Column := ⟨n.repeat double 1, 0, 0, 0⟩

/-- The change that column `i` of the expanded key makes of the one before it. -/
def twist (size : KeySize) (i : Nat) (c : Column) : Column :=
  if i % size.columns = 0 then
    (c.rotate.map substitute).xor (roundConstant (i / size.columns - 1))
  else if size.columns = 8 ∧ i % 8 = 4 then c.map substitute
  else c

/-- Column `i` of the expanded key, from those before it. -/
def expandColumn (size : KeySize) (columns : Array Column) (i : Nat) : Array Column :=
  columns.push <|
    (columns.getD (i - size.columns) default).xor (twist size i (columns.getD (i - 1) default))

/-- The columns of the expanded key: four in front of the first round and four for each. -/
def expandedColumns (size : KeySize) (key : Bytes) : Array Column :=
  (List.range' size.columns (4 * (size.rounds + 1) - size.columns)).foldl (expandColumn size)
    ((Bytes.blocks 4 key).map Column.ofBytes).toArray

/-- An expanded key. -/
structure RoundKeys where
  /-- The block in front of the first round. -/
  first : Block
  /-- The blocks after each round but the last. -/
  middle : List Block
  /-- The block after the last round. -/
  last : Block
deriving DecidableEq, Repr

namespace RoundKeys

/-- Expands a key of the given size. -/
def expand (size : KeySize) (key : Bytes) : RoundKeys :=
  let columns := expandedColumns size key
  let column (i : Nat) : Column := columns.getD i default
  let block (i : Nat) : Block :=
    ⟨column (4 * i), column (4 * i + 1), column (4 * i + 2), column (4 * i + 3)⟩
  ⟨block 0, (List.range' 1 (size.rounds - 1)).map block, block size.rounds⟩

/-- Encrypts a block. -/
def encrypt (keys : RoundKeys) (x : Block) : Block :=
  ((keys.middle.foldl (fun y key => y.round.xor key) (x.xor keys.first)).scatter).xor keys.last

/-- Decrypts a block. -/
def decrypt (keys : RoundKeys) (x : Block) : Block :=
  (keys.middle.foldr (fun key y => (y.xor key).unround) (x.xor keys.last).gather).xor keys.first

end RoundKeys

end Strongbox.Aes
