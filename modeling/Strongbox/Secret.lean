import Strongbox.Codec.Hex
import Strongbox.Random
import Strongbox.Text.Utf8
/-!
# Secrets

Passwords, derived keys and initialization vectors. Of a password and a key only the length is
shown.

## Main definitions

* `Password`, `Password.close`: a password, and what is left of it once it is erased
* `DerivedKey`: a key made from a password
* `Iv`: an initialization vector, one block
-/

namespace Strongbox

/-- A password. -/
structure Password where
  /-- Its bytes. -/
  bytes : Bytes
deriving DecidableEq, Repr

namespace Password

/-- The password a text spells. -/
def ofText (s : String) : Password := ⟨Text.Utf8.encode s⟩

/-- Its length in bytes. -/
def length (password : Password) : Nat := password.bytes.length

/-- Whether it has no bytes. -/
def isEmpty (password : Password) : Bool := password.bytes.isEmpty

/-- The password once it is erased. -/
def close (_ : Password) : Password := ⟨[]⟩

/-- What is shown of a password. -/
def describe (password : Password) : String :=
  "Password([REDACTED; " ++ toString password.length ++ " bytes])"

end Password

/-- A key made from a password. -/
structure DerivedKey where
  /-- Its bytes. -/
  bytes : Bytes
deriving DecidableEq, Repr

namespace DerivedKey

/-- Its length in bytes. -/
def length (key : DerivedKey) : Nat := key.bytes.length

/-- Whether it has no bytes. -/
def isEmpty (key : DerivedKey) : Bool := key.bytes.isEmpty

/-- What is shown of a key. -/
def describe (key : DerivedKey) : String :=
  "DerivedKey([REDACTED; " ++ toString key.length ++ " bytes])"

end DerivedKey

/-- The length of a block, and so of an initialization vector. -/
def blockLength : Nat := 16

/-- An initialization vector: one block. -/
structure Iv where
  /-- Its bytes. -/
  bytes : Bytes
  /-- It is one block. -/
  length_bytes : bytes.length = blockLength
deriving DecidableEq

namespace Iv

/-- The first block of a byte string that has one. -/
def ofPrefix? (data : Bytes) : Option Iv :=
  if h : blockLength ≤ data.length then some ⟨data.take blockLength, by simp [h]⟩ else none

/-- A vector drawn from a source, and the source after that. -/
def draw (source : Random) : Iv × Random :=
  (⟨(source.draw blockLength).1, source.length_draw blockLength⟩, (source.draw blockLength).2)

/-- What is shown of a vector. -/
def describe (iv : Iv) : String := "Iv(" ++ String.ofList (Hex.encode iv.bytes) ++ ")"

end Iv

end Strongbox
