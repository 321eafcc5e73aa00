import Strongbox.Digest.Md5
import Strongbox.Digest.Sha1
import Strongbox.Digest.Sha2
import Strongbox.Error
import Strongbox.Text.Outline
import Strongbox.Text.Token
/-!
# Digests

The digests the library knows, by name, and an engine that computes one of them over a message
that comes in pieces.

## Main definitions

* `Digest`: the digests, `Digest.name` and `Digest.ofName`: their names
* `Digest.hash`: the digest of a whole message
* `Digest.Engine`: a digest with the pieces fed to it so far

## Main results

* `Digest.hashLength_pos`: every digest has a byte at least
* `Engine.length_pos_of_finishInto`: a buffer that took a digest is not empty
-/

namespace Strongbox

/-- A digest. -/
inductive Digest where
  /-- MD5. -/
  | md5
  /-- SHA-1. -/
  | sha1
  /-- SHA-256. -/
  | sha256
  /-- SHA-384. -/
  | sha384
  /-- SHA-512. -/
  | sha512
deriving DecidableEq, Repr, Hashable

namespace Digest

/-- The digests. -/
def all : List Digest := [.md5, .sha1, .sha256, .sha384, .sha512]

/-- The name a digest has in documents. -/
def name : Digest → String
  | .md5 => "MD5"
  | .sha1 => "SHA1"
  | .sha256 => "SHA256"
  | .sha384 => "SHA384"
  | .sha512 => "SHA512"

/-- The digest of a name as it is typed; dashes do not count. -/
def ofName (s : String) : Result Digest :=
  match all.find? (·.name = Text.without '-' (Text.uppered s)) with
  | some digest => .ok digest
  | none => .error (.invalidValue "hashFunction" s)

/-- The length of the digest in bytes. -/
def hashLength : Digest → Nat
  | .md5 => 16
  | .sha1 => 20
  | .sha256 => 32
  | .sha384 => 48
  | .sha512 => 64

/-- Every digest has a byte at least. -/
theorem hashLength_pos (digest : Digest) : 0 < digest.hashLength := by
  cases digest <;> decide

/-- As many digests as bytes are wanted are enough. -/
theorem le_mul_hashLength (digest : Digest) (n : Nat) : n ≤ n * digest.hashLength :=
  Nat.le_mul_of_pos_right n digest.hashLength_pos

/-- How the digest is computed. -/
def scheme : Digest → Scheme
  | .md5 => Md5.scheme
  | .sha1 => Sha1.scheme
  | .sha256 => Sha2.scheme256
  | .sha384 => Sha2.scheme384
  | .sha512 => Sha2.scheme512

/-- The length of a block in bytes. -/
def blockLength (digest : Digest) : Nat := digest.scheme.blockLength

/-- The digest of a whole message. -/
def hash (digest : Digest) (message : Bytes) : Bytes := digest.scheme.hash message

/-- What is shown of a digest. -/
def outline : Digest → Text.Outline
  | .md5 => .word "Md5"
  | .sha1 => .word "Sha1"
  | .sha256 => .word "Sha256"
  | .sha384 => .word "Sha384"
  | .sha512 => .word "Sha512"

/-- A digest with the pieces fed to it so far. -/
structure Engine where
  /-- The digest. -/
  digest : Digest
  /-- What was fed to it. -/
  stream : digest.scheme.Stream

/-- An engine to which nothing was fed. -/
def engine (digest : Digest) : Engine := ⟨digest, .start⟩

namespace Engine

/-- Drops what was fed. -/
def reset (engine : Engine) : Engine := engine.digest.engine

/-- Feeds a piece. -/
def update (engine : Engine) (piece : Bytes) : Engine :=
  ⟨engine.digest, engine.stream.update piece⟩

/-- The digest of what was fed, and a fresh engine. -/
def finish (engine : Engine) : Bytes × Engine := (engine.stream.finish, engine.reset)

/-- Writes the digest of what was fed into a buffer, from an offset on, and gives the buffer with a
fresh engine; if there is too little room, nothing is touched. -/
def finishInto (engine : Engine) (buffer : Bytes) (offset : Nat) : Result (Bytes × Engine) :=
  let available := Bytes.room buffer offset
  if available < engine.digest.hashLength then
    .error (.bufferTooShort engine.digest.hashLength available)
  else .ok (Bytes.splice buffer offset engine.stream.finish, engine.reset)

/-- A buffer that took a digest is not empty. -/
theorem length_pos_of_finishInto {engine next : Engine} {buffer written : Bytes} {offset : Nat}
    (h : engine.finishInto buffer offset = .ok (written, next)) : 0 < written.length := by
  simp only [finishInto] at h
  split at h
  · cases h
  · next hroom =>
    obtain ⟨rfl, -⟩ := Prod.mk.inj (Except.ok.inj h)
    have hpos := engine.digest.hashLength_pos
    simp only [Bytes.room] at hroom
    simp only [Bytes.splice, List.length_append, List.length_take, List.length_drop]
    omega

/-- What is shown of an engine. -/
def outline (engine : Engine) : Text.Outline :=
  .record "MessageDigest" [("algorithm", engine.digest.outline)] true

end Engine

end Digest

end Strongbox
