import Strongbox.Aes.Cipher
import Strongbox.Aes.Padding
import Strongbox.Error
/-!
# The cipher

Byte strings of any length are padded and encrypted block by block, each block after it was
combined with the ciphertext of the one before it, the first with the initialization vector.

## Main definitions

* `Cipher.chain`, `Cipher.unchain`: the chaining of blocks and its inverse
* `Cipher.encrypt`, `Cipher.decrypt`: the cipher on byte strings
-/

namespace Strongbox.Cipher

open Aes (Block KeySize RoundKeys)

/-- Encrypts blocks, each combined with the ciphertext of the one before it. -/
def chain (keys : RoundKeys) : (previous : Block) → List Block → List Block
  | _, [] => []
  | previous, x :: rest =>
    let y := keys.encrypt (x.xor previous)
    y :: chain keys y rest

/-- Decrypts blocks, each combined with the ciphertext of the one before it. -/
def unchain (keys : RoundKeys) : (previous : Block) → List Block → List Block
  | _, [] => []
  | previous, y :: rest => (keys.decrypt y).xor previous :: unchain keys y rest

/-- The blocks of a byte string. -/
def blocks (data : Bytes) : List Block := (Bytes.blocks 16 data).map Block.ofBytes

/-- The byte string of blocks. -/
def bytes (xs : List Block) : Bytes := xs.flatMap Block.toBytes

/-- The size of a key, which has to be one. -/
def keySize (length : Nat) : Result KeySize :=
  match KeySize.ofKeyLength? length with
  | some size => .ok size
  | none => .error (.invalidInput (.keyLength length))

/-- The expanded key and the block of the initialization vector. The key is looked at first. -/
def setUp (key iv : Bytes) : Result (RoundKeys × Block) := do
  let size ← keySize key.length
  if iv.length = 16 then .ok (RoundKeys.expand size key, Block.ofBytes iv)
  else .error (.invalidInput (.ivLength iv.length))

/-- The ciphertext of a byte string. -/
def encrypt (key iv data : Bytes) : Result Bytes := do
  let (keys, iv) ← setUp key iv
  return bytes (chain keys iv (blocks (Padding.pad data)))

/-- The byte string of a ciphertext. -/
def decrypt (key iv data : Bytes) : Result Bytes := do
  let (keys, iv) ← setUp key iv
  if data.length % 16 ≠ 0 then .error .decryptionFailed
  else match Padding.unpad? (bytes (unchain keys iv (blocks data))) with
    | some plain => .ok plain
    | none => .error .decryptionFailed

end Strongbox.Cipher
