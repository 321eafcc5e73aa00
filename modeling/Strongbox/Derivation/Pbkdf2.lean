import Strongbox.Hmac
/-!
# Derivation by iterated keyed digests

Each block is the exclusive or of a chain of keyed digests under the password: the first is that of
the salt and the number of the block, each other that of the one before. The key is the leading
bytes of all blocks together.

## Main definitions

* `Pbkdf2.block`: a block
* `Pbkdf2.fill`: the leading bytes of the blocks
-/

namespace Strongbox.Pbkdf2

/-- Goes `rounds` further along the chain from `last`, gathering the exclusive or in `sum`. -/
def chain {digest : Digest} (key : Hmac.Key digest) : (rounds : Nat) → (last sum : Bytes) → Bytes
  | 0, _, sum => sum
  | rounds + 1, last, sum =>
    let next := key.mac last
    chain key rounds next (Bytes.xor sum next)

/-- The block of the given number; the first has number one. -/
def block {digest : Digest} (key : Hmac.Key digest) (salt : Bytes) (iterations : Nat)
    (number : UInt32) : Bytes :=
  let first := key.mac (salt ++ Bytes.bigEndian 4 number.toNat)
  chain key (iterations - 1) first first

/-- The blocks from the given number on, as far as the next `left` bytes reach. -/
def fillFrom {digest : Digest} (key : Hmac.Key digest) (salt : Bytes) (iterations : Nat)
    (number : UInt32) (left : Nat) : Bytes :=
  if left = 0 then []
  else
    (block key salt iterations number).take left ++
      fillFrom key salt iterations (number + 1) (left - digest.hashLength)
termination_by left
decreasing_by
  have := digest.hashLength_pos
  omega

/-- The key of `length` bytes. -/
def fill (digest : Digest) (iterations : Nat) (password salt : Bytes) (length : Nat) : Bytes :=
  fillFrom (Hmac.Key.prepare digest password) salt iterations 1 length

end Strongbox.Pbkdf2
