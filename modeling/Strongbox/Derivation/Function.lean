import Strongbox.Digest
/-!
# Derivation functions

The three functions that make a key from a password and a salt, by name, and what each of them
falls back on when it is not told otherwise.

## Main definitions

* `Derivation.Function`: the functions, `Function.name` and `Function.ofName`: their names
* `Function.defaultDigest`, `Function.defaultKeyLength`: what they fall back on
-/

namespace Strongbox.Derivation

/-- A derivation function. -/
inductive Function where
  /-- Chained digests, one a block. -/
  | legacy
  /-- Iterated keyed digests. -/
  | iteratedDigest
  /-- Memory-hard mixing. -/
  | memoryHard
deriving DecidableEq, Repr

namespace Function

/-- The functions. -/
def all : List Function := [.legacy, .iteratedDigest, .memoryHard]

/-- The name a function has in documents. -/
def name : Function → String
  | .legacy => "legacy"
  | .iteratedDigest => "iterated-digest"
  | .memoryHard => "memory-hard"

/-- The other name a function goes by. -/
def otherName : Function → String
  | .legacy => "openssl"
  | .iteratedDigest => "pbkdf2"
  | .memoryHard => "scrypt"

/-- The function of a name as it is typed; underscores count as dashes. -/
def ofName (s : String) : Result Function :=
  let token := Text.substitute '_' '-' (Text.lowered s)
  match all.find? fun function => function.name = token || function.otherName = token with
  | some function => .ok function
  | none => .error (.invalidValue "function" s)

/-- The digest used when none is given. -/
def defaultDigest : Function → Digest
  | .legacy => .md5
  | .iteratedDigest => .sha1
  | .memoryHard => .sha256

/-- The key length used when none is given. -/
def defaultKeyLength : Function → Nat
  | .legacy => 16
  | .iteratedDigest => 20
  | .memoryHard => 32

/-- What is shown of a function. -/
def outline : Function → Text.Outline
  | .legacy => .word "Legacy"
  | .iteratedDigest => .word "IteratedDigest"
  | .memoryHard => .word "MemoryHard"

end Function

end Strongbox.Derivation
