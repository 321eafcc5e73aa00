import Strongbox.Bytes
/-!
# Iterated digests

A digest of the iterated kind folds a compression function over the blocks of the padded message.
The padding is a one bit, zeros, and the length of the message in bits. Besides the digest of a
whole message there is a stream, which takes the message in pieces and holds nothing but the
chaining value and the bytes of the block begun.

## Main definitions

* `Digest.Scheme`: what tells one iterated digest from another
* `Scheme.padding`, `Scheme.hash`: the digest of a whole message
* `Scheme.Stream`: a message that comes in pieces
-/

namespace Strongbox.Digest

/-- What tells one iterated digest from another. -/
structure Scheme where
  /-- The chaining values. -/
  Chain : Type
  /-- The chaining value in front of the first block. -/
  initial : Chain
  /-- The length of a block in bytes. -/
  blockLength : Nat
  /-- The bytes at the end of the padding that hold the length of the message. -/
  lengthWidth : Nat
  /-- A number in the bytes that hold the length. -/
  encodeLength : Nat → Bytes
  /-- The chaining value after a block. -/
  compress : Chain → Bytes → Chain
  /-- The digest of a chaining value. -/
  output : Chain → Bytes

namespace Scheme

variable (scheme : Scheme)

/-- The zeros between the one bit and the length, so that the padded message ends with a block. -/
def zeros (length : Nat) : Nat :=
  (scheme.blockLength - (length + 1 + scheme.lengthWidth) % scheme.blockLength) %
    scheme.blockLength

/-- What is put behind a message of the given length in bytes. -/
def padding (length : Nat) : Bytes :=
  0x80 :: List.replicate (scheme.zeros length) 0 ++ scheme.encodeLength (8 * length)

/-- The digest of a message: the compression function folded over the blocks of the padded
message. -/
def hash (message : Bytes) : Bytes :=
  scheme.output <|
    (Bytes.blocks scheme.blockLength (message ++ scheme.padding message.length)).foldl
      scheme.compress scheme.initial

/-- A message that comes in pieces. -/
structure Stream where
  /-- The chaining value after the whole blocks so far. -/
  chain : scheme.Chain
  /-- The bytes of the block begun, the newest first. -/
  pending : Bytes
  /-- The number of bytes so far. -/
  count : Nat

namespace Stream

variable {scheme}

/-- A stream without any bytes. -/
def start : scheme.Stream := ⟨scheme.initial, [], 0⟩

/-- Takes a byte; if it completes a block, the block is compressed. -/
def push (stream : scheme.Stream) (b : UInt8) : scheme.Stream :=
  if (stream.count + 1) % scheme.blockLength = 0 then
    ⟨scheme.compress stream.chain (b :: stream.pending).reverse, [], stream.count + 1⟩
  else ⟨stream.chain, b :: stream.pending, stream.count + 1⟩

/-- Takes a piece of the message. -/
def update (stream : scheme.Stream) (piece : Bytes) : scheme.Stream := piece.foldl push stream

/-- The digest of what came so far. -/
def finish (stream : scheme.Stream) : Bytes :=
  scheme.output (stream.update (scheme.padding stream.count)).chain

@[simp] theorem update_nil (stream : scheme.Stream) : stream.update [] = stream := rfl

/-- How a message is cut into pieces does not matter. -/
@[simp] theorem update_append (stream : scheme.Stream) (a b : Bytes) :
    stream.update (a ++ b) = (stream.update a).update b := by
  simp [update]

end Stream

end Scheme

end Strongbox.Digest
