import Strongbox.Digest
/-!
# Keyed digests

The keyed digest of a message: the digest of the outer key block followed by the digest of the
inner key block followed by the message. A key that is used more than once is prepared: the two
key blocks are fed to a stream each, and every message continues from there.

## Main definitions

* `Hmac.keyBlock`: a key as one block
* `Hmac.mac`: the keyed digest of a message
* `Hmac.Key`: a prepared key, `Key.mac`: the keyed digest under it
-/

namespace Strongbox.Hmac

/-- The byte that masks the key block of the inner digest. -/
def innerMask : UInt8 := 0x36

/-- The byte that masks the key block of the outer digest. -/
def outerMask : UInt8 := 0x5C

/-- A key as one block: its digest if it is longer than a block, filled up with zeros. -/
def keyBlock (digest : Digest) (key : Bytes) : Bytes :=
  let key := if digest.blockLength < key.length then digest.hash key else key
  key ++ List.replicate (digest.blockLength - key.length) 0

/-- A key block under a mask. -/
def masked (mask : UInt8) (block : Bytes) : Bytes := block.map (· ^^^ mask)

/-- The keyed digest of a message. -/
def mac (digest : Digest) (key message : Bytes) : Bytes :=
  let block := keyBlock digest key
  digest.hash (masked outerMask block ++ digest.hash (masked innerMask block ++ message))

/-- A prepared key: the streams that the two key blocks were fed to. -/
structure Key (digest : Digest) where
  /-- The stream of the inner digest. -/
  inner : digest.scheme.Stream
  /-- The stream of the outer digest. -/
  outer : digest.scheme.Stream

namespace Key

variable {digest : Digest}

/-- Prepares a key. -/
def prepare (digest : Digest) (key : Bytes) : Key digest :=
  let block := keyBlock digest key
  ⟨Digest.Scheme.Stream.start.update (masked innerMask block),
    Digest.Scheme.Stream.start.update (masked outerMask block)⟩

/-- The keyed digest of a message under a prepared key. -/
def mac (key : Key digest) (message : Bytes) : Bytes :=
  (key.outer.update (key.inner.update message).finish).finish

end Key

end Strongbox.Hmac
