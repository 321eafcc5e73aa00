import Strongbox.Digest
/-!
# Derivation by chained digests

Each block is the digest of the block before it, the password and the salt; the first has no block
before it. A slice is filled with the blocks one behind the other, the last one cut where the slice
ends. One engine makes all blocks, and one buffer takes them, each over the one before.

## Main definitions

* `BytesToKey.fill`: a slice filled with the leading bytes of the blocks
-/

namespace Strongbox.BytesToKey

/-- Fills a slice from the place `written` on, `block` being the block before, and gives the slice
as it is afterwards, with how that went. -/
def fillFrom (engine : Digest.Engine) (password salt block slice : Bytes) (written : Nat) :
    Bytes × Result Unit :=
  if written < slice.length then
    let begun := if 0 < written then engine.update block else engine
    match _ : ((begun.update password).update salt).finishInto block 0 with
    | .error error => (slice, .error error)
    | .ok (block, engine) =>
      let count := min block.length (slice.length - written)
      fillFrom engine password salt block (Bytes.splice slice written (block.take count))
        (written + count)
  else (slice, .ok ())
termination_by slice.length - written
decreasing_by
  rename_i hlt h
  -- a block has a byte at least, and what is written of it leaves the length of the slice alone
  have hpos := Digest.Engine.length_pos_of_finishInto h
  rw [Bytes.length_splice (by simp only [Bytes.room, List.length_take]; omega) (Nat.le_of_lt hlt)]
  omega

/-- Fills a slice with a key, whatever it holds. -/
def fill (digest : Digest) (password salt slice : Bytes) : Bytes × Result Unit :=
  fillFrom digest.engine password salt (List.replicate digest.hashLength 0) slice 0

end Strongbox.BytesToKey
